import NodeFlow.Proofs.Json.Doubles
import NodeFlow.Proofs.Graph.Links
import NodeFlow.Graph.Write
import NodeFlow.Decimal.Text
/-!
# Fresh ids

`Graph.nextId` counts past every node id written only with digits. The decimal
text of a natural number is such an id and reads back as that number
(`Decimal.readInteger_toString`), so with a floor that is not negative the text
of any integer from `nextId` on is the id of no node (`nextId_fresh`). This is
what lets the nodes of a chain go after those of the graph without replacing
one.
-/

namespace NodeFlow

namespace Decimal

open Json.Reader

theorem digit_toNat {c : Char} (h : c.isDigit = true) : 48 ≤ c.toNat ∧ c.toNat ≤ 57 := by
  simp only [Char.isDigit, Bool.and_eq_true, decide_eq_true_eq] at h
  exact ⟨UInt32.le_iff_toNat_le.1 h.1, UInt32.le_iff_toNat_le.1 h.2⟩

variable {cs : List Char}

theorem asciiForm_go_ascii (h : ∀ c ∈ cs, c.toNat < 0x7f) : asciiForm.go cs = cs := by
  induction cs with
  | nil => rfl
  | cons c cs ih =>
    rw [asciiForm.go, if_pos (h c List.mem_cons_self), ih fun d hd => h d (List.mem_cons_of_mem c hd)]

theorem hasDoubleUnderscore_of_not_mem : ∀ {cs : List Char}, '_' ∉ cs → hasDoubleUnderscore cs = false
  | [], _ => rfl
  | c :: cs, h => by
    rw [List.mem_cons, not_or] at h
    unfold hasDoubleUnderscore
    split
    · rename_i heq
      cases heq
      exact absurd rfl h.1
    · rename_i heq
      cases heq
      exact hasDoubleUnderscore_of_not_mem h.2
    · rfl

/-- A run of digits is one group, with nothing after it. -/
theorem groupedDigits_digits (hd : Digits cs) : groupedDigits cs = some (cs, []) := by
  have hunder : '_' ∉ cs := fun hu => absurd (hd.2 '_' hu) (by decide)
  have hpart : ∀ c ∈ cs, (c.isDigit || c == '_') = true := fun c hc => by simp [hd.2 c hc]
  have hrun : cs.takeWhile (fun c => c.isDigit || c == '_') = cs := by
    simpa using @List.takeWhile_append_of_pos _ _ cs [] hpart
  have hrest : cs.dropWhile (fun c => c.isDigit || c == '_') = [] := by
    simpa using @List.dropWhile_append_of_pos _ _ cs [] hpart
  -- the run neither starts nor ends with an underscore, having none
  have hhead : (cs.head? == some '_') = false := by
    cases hh : cs.head? with
    | none => rfl
    | some c =>
      have : c ≠ '_' := fun e => hunder (e ▸ List.mem_of_mem_head? hh)
      simpa using this
  have hlast : (cs.getLast? == some '_') = false := by
    cases hh : cs.getLast? with
    | none => rfl
    | some c =>
      have : c ≠ '_' := fun e => hunder (e ▸ List.mem_of_getLast? hh)
      simpa using this
  unfold groupedDigits
  dsimp only
  rw [hrun, hrest, hhead, hlast, hasDoubleUnderscore_of_not_mem hunder, List.filter_eq_self.2]
  · rfl
  · intro c hc
    simpa using fun e : c = '_' => hunder (e ▸ hc)

/-- **The decimal text of a natural number reads back as that number**, unless
it has too many digits to be read. -/
theorem readInteger_toString (j : Nat) :
    readInteger (toString j) =
      if maxIntegerDigits < (toString j).length then .tooLong (toString j).length else .value j := by
  have hd := toDigits_digits j
  have hs : (toString j).toList = Nat.toDigits 10 j := NumberText.toList_toString_nat j
  obtain ⟨c, ds, hcs⟩ : ∃ c ds, Nat.toDigits 10 j = c :: ds := List.exists_cons_of_ne_nil hd.1
  have hc := digit_toNat (hd.2 c (by rw [hcs]; exact List.mem_cons_self))
  unfold readInteger asciiForm
  rw [hs, asciiForm_go_ascii fun d hd' => by have := digit_toNat (hd.2 d hd'); omega]
  -- a leading digit is no blank and no sign
  have hblank : Text.isAsciiBlank c = false := by
    have hne : c ≠ ' ' := fun he => by subst he; simp at hc
    unfold Text.isAsciiBlank
    simp [hne]
    omega
  have hsign : splitSign (c :: ds) = (false, c :: ds) := by
    have h1 : c ≠ '-' := fun he => by subst he; simp at hc
    have h2 : c ≠ '+' := fun he => by subst he; simp at hc
    unfold splitSign
    split
    · rename_i heq
      cases heq
      exact absurd rfl h1
    · rename_i heq
      cases heq
      exact absurd rfl h2
    · rfl
  rw [hcs, List.dropWhile_cons, hblank, if_neg Bool.false_ne_true, hsign]
  dsimp only
  rw [← hcs, groupedDigits_digits hd, ← String.length_toList, hs]
  dsimp only
  rw [hcs, List.isEmpty_cons, if_neg Bool.false_ne_true, ← hcs]
  simp [signed]

/-- Distinct natural numbers have distinct decimal texts. -/
theorem toString_injective {a b : Nat} (h : toString a = toString b) : a = b := by
  have ha := digitsValue_toDigits a
  have hb := digitsValue_toDigits b
  rw [← NumberText.toList_toString_nat, h, NumberText.toList_toString_nat] at ha
  rw [← ha, hb]

theorem toString_int_injective {a b : Int} (ha : 0 ≤ a) (hb : 0 ≤ b) (h : toString a = toString b) :
    a = b := by
  rw [← Int.toNat_of_nonneg ha, ← Int.toNat_of_nonneg hb] at h ⊢
  exact congrArg _ (toString_injective (show toString a.toNat = toString b.toNat from h))

end Decimal

namespace Text

theorem isDigitText_toString (j : Nat) : isDigitText (toString j) = true := by
  have hd := Json.Reader.toDigits_digits j
  have hs := Json.Reader.NumberText.toList_toString_nat j
  have hne : (toString j).isEmpty = false := by
    cases he : (toString j).isEmpty with
    | false => rfl
    | true =>
      rw [String.isEmpty_iff] at he
      rw [he] at hs
      exact absurd hs.symm hd.1
  unfold isDigitText
  rw [hne, hs, Bool.not_false, Bool.true_and, List.all_eq_true]
  intro c hc
  have hlt := Decimal.digit_toNat (hd.2 c hc)
  unfold isDigitChar
  rw [if_pos (by omega)]
  exact hd.2 c hc

end Text

/-- A monadic filter-map that succeeds gave a result at every element, and
kept each value it found. -/
theorem filterMapM_except_mem {α β ε : Type} {f : α → Except ε (Option β)} :
    ∀ {l : List α} {r : List β}, l.filterMapM f = .ok r →
      ∀ a ∈ l, ∃ o, f a = .ok o ∧ ∀ b, o = some b → b ∈ r
  | [], _, _, _, ha => absurd ha List.not_mem_nil
  | x :: l, r, h, a, ha => by
    rw [List.filterMapM_cons] at h
    cases hx : f x with
    | error e =>
      rw [hx] at h
      cases h
    | ok o =>
      rw [hx] at h
      simp only [bind, Except.bind] at h
      cases o with
      | none =>
        rcases List.mem_cons.1 ha with rfl | ha
        · exact ⟨none, hx, fun _ hb => by cases hb⟩
        · exact filterMapM_except_mem h a ha
      | some b =>
        dsimp only at h
        cases hl : l.filterMapM f with
        | error e =>
          rw [hl] at h
          cases h
        | ok r' =>
          rw [hl] at h
          cases h
          rcases List.mem_cons.1 ha with rfl | ha
          · exact ⟨some b, hx, fun b' hb' => by cases hb'; exact List.mem_cons_self⟩
          · obtain ⟨o, ho, hmem⟩ := filterMapM_except_mem hl a ha
            exact ⟨o, ho, fun b' hb' => List.mem_cons_of_mem b (hmem b' hb')⟩

theorem le_foldl_max (l : List Int) (a : Int) : a ≤ l.foldl max a := by
  induction l generalizing a with
  | nil => exact Int.le_refl a
  | cons x l ih => exact Int.le_trans (Int.le_max_left a x) (ih (max a x))

theorem le_foldl_max_of_mem {l : List Int} {x : Int} (hx : x ∈ l) (a : Int) : x ≤ l.foldl max a := by
  induction l generalizing a with
  | nil => exact absurd hx List.not_mem_nil
  | cons y l ih =>
    rcases List.mem_cons.1 hx with rfl | hx
    · exact Int.le_trans (Int.le_max_right a x) (le_foldl_max l (max a x))
    · exact ih hx (max a y)

namespace Graph

variable {g : Graph} {floor first : Int}

/-- A node whose id is the decimal text of a number counts among the numeric ids. -/
theorem mem_numericIds {ids : List Int} (h : g.numericIds = .ok ids) {n : Node} (hn : n ∈ g.nodes)
    {j : Nat} (hj : n.id = toString j) : (j : Int) ∈ ids := by
  obtain ⟨o, ho, hmem⟩ := filterMapM_except_mem h n hn
  rw [hj, Text.isDigitText_toString, if_pos rfl, Decimal.readInteger_toString] at ho
  -- a text too long to read would have failed the whole list
  by_cases hlen : Decimal.maxIntegerDigits < (toString j).length
  · rw [if_pos hlen] at ho
    cases ho
  · rw [if_neg hlen] at ho
    cases ho
    exact hmem j rfl

theorem nextId_eq (h : g.nextId floor = .ok first) :
    ∃ ids, g.numericIds = .ok ids ∧ first = ids.foldl max (floor - 1) + 1 := by
  unfold nextId at h
  cases hids : g.numericIds with
  | error e =>
    rw [hids] at h
    cases h
  | ok ids =>
    rw [hids] at h
    cases h
    exact ⟨ids, rfl, rfl⟩

theorem floor_le_nextId (h : g.nextId floor = .ok first) : floor ≤ first := by
  obtain ⟨ids, -, rfl⟩ := nextId_eq h
  have := le_foldl_max ids (floor - 1)
  omega

/-- **The decimal text of an integer from the next id on names no node**, for
a floor that is not negative. -/
theorem nextId_fresh (h : g.nextId floor = .ok first) (hfloor : 0 ≤ floor) {j : Int}
    (hj : first ≤ j) : g.contains (toString j) = false := by
  obtain ⟨ids, hids, hfirst⟩ := nextId_eq h
  have hnat : ((j.toNat : Nat) : Int) = j := Int.toNat_of_nonneg (by have := floor_le_nextId h; omega)
  cases hc : g.contains (toString j) with
  | false => rfl
  | true =>
    obtain ⟨n, hn, hid⟩ := contains_iff.1 hc
    rw [← hnat] at hid
    -- the node's id counts, so the next id is past it
    have hmem := mem_numericIds hids hn hid
    have hle := le_foldl_max_of_mem hmem (floor - 1)
    omega

end Graph

end NodeFlow
