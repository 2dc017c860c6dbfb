import NodeFlow.Proofs.Json.Strings
import NodeFlow.Proofs.Json.Doubles
import NodeFlow.Proofs.Json.Layout
import NodeFlow.Validation.Issue
/-!
# Writing a value and reading it back

Reading the text a separated layout writes gives back `v.rereadBy text`: the
same value with each double replaced by the double its written digits read as,
each text and member name as the reader takes back its quoted form (`text`,
known through `QuotesAs`), and the members of each object merged by name as
the reader merges them (`Fields.ofPairs`). The one condition is that every
integer is short enough to be written (`Issue.writable`). This is
`decode_renderBy`; for a layout that writes texts as they are, `text` is the
canonical form and the result is `v.reread` (`decode_render`).

The proof goes by the structure of the value (`readBack`): a scalar's text is
read in one step, and brackets around items are read item by item
(`items_read`, `members_read`) with the blanks between them skipped. Each
written text also starts with a token and is long enough for the fuel the
reader is given.
-/

namespace NodeFlow

namespace Json

open Reader

mutual

/-- What reading a written value gives back. -/
def Value.reread : Value → Value
  | .float x => .float (rereadDouble x)
  | .str s => .str (Text.canonical s)
  | .arr xs => .arr (Value.rereadItems xs)
  | .obj fs => .obj (Fields.ofPairs (Value.rereadMembers fs))
  | v => v

/-- Items read back. -/
def Value.rereadItems : List Value → List Value
  | [] => []
  | v :: vs => v.reread :: Value.rereadItems vs

/-- Members read back, before repeated names are merged. -/
def Value.rereadMembers : List (String × Value) → List (String × Value)
  | [] => []
  | (k, v) :: rest => (Text.canonical k, v.reread) :: Value.rereadMembers rest

end

mutual

/-- What reading a written value gives back when its texts are read back as
`text` gives them: `Value.reread` for texts written as they are. -/
def Value.rereadBy (text : String → String) : Value → Value
  | .float x => .float (rereadDouble x)
  | .str s => .str (text s)
  | .arr xs => .arr (Value.rereadItemsBy text xs)
  | .obj fs => .obj (Fields.ofPairs (Value.rereadMembersBy text fs))
  | v => v

/-- Items read back. -/
def Value.rereadItemsBy (text : String → String) : List Value → List Value
  | [] => []
  | v :: vs => v.rereadBy text :: Value.rereadItemsBy text vs

/-- Members read back, before repeated names are merged. -/
def Value.rereadMembersBy (text : String → String) : List (String × Value) → List (String × Value)
  | [] => []
  | (k, v) :: rest => (text k, v.rereadBy text) :: Value.rereadMembersBy text rest

end

mutual

/-- The fuel reading a value needs: one per value, item and member. -/
def Value.readSize : Value → Nat
  | .arr xs => 1 + Value.itemsReadSize xs
  | .obj fs => 1 + Value.membersReadSize fs
  | _ => 1

/-- The fuel reading items needs. -/
def Value.itemsReadSize : List Value → Nat
  | [] => 0
  | v :: vs => 1 + v.readSize + Value.itemsReadSize vs

/-- The fuel reading members needs. -/
def Value.membersReadSize : List (String × Value) → Nat
  | [] => 0
  | (_, v) :: rest => 1 + v.readSize + Value.membersReadSize rest

end

@[simp] theorem Value.rereadItems_eq_map (xs : List Value) : Value.rereadItems xs = xs.map Value.reread := by
  induction xs with
  | nil => rfl
  | cons x xs ih => simp [Value.rereadItems, ih]

@[simp] theorem Value.rereadMembers_eq_map (fs : List (String × Value)) :
    Value.rereadMembers fs = fs.map fun kv => (Text.canonical kv.1, kv.2.reread) := by
  induction fs with
  | nil => rfl
  | cons kv fs ih => simp [Value.rereadMembers, ih]

@[simp] theorem Value.rereadItemsBy_eq_map (text : String → String) (xs : List Value) :
    Value.rereadItemsBy text xs = xs.map (Value.rereadBy text) := by
  induction xs with
  | nil => rfl
  | cons x xs ih => simp [Value.rereadItemsBy, ih]

@[simp] theorem Value.rereadMembersBy_eq_map (text : String → String) (fs : List (String × Value)) :
    Value.rereadMembersBy text fs = fs.map fun kv => (text kv.1, kv.2.rereadBy text) := by
  induction fs with
  | nil => rfl
  | cons kv fs ih => simp [Value.rereadMembersBy, ih]

mutual

/-- Reading back texts in canonical form is `Value.reread`. -/
theorem Value.rereadBy_canonical : ∀ v : Value, v.rereadBy Text.canonical = v.reread
  | .null | .bool _ | .int _ | .float _ | .str _ => rfl
  | .arr xs => by
    rw [Value.rereadBy, Value.reread, Value.rereadItemsBy_canonical xs]
  | .obj fs => by
    rw [Value.rereadBy, Value.reread, Value.rereadMembersBy_canonical fs]

theorem Value.rereadItemsBy_canonical :
    ∀ xs : List Value, Value.rereadItemsBy Text.canonical xs = Value.rereadItems xs
  | [] => rfl
  | x :: xs => by
    rw [Value.rereadItemsBy, Value.rereadItems, Value.rereadBy_canonical x, Value.rereadItemsBy_canonical xs]

theorem Value.rereadMembersBy_canonical :
    ∀ fs : List (String × Value), Value.rereadMembersBy Text.canonical fs = Value.rereadMembers fs
  | [] => rfl
  | (k, v) :: fs => by
    rw [Value.rereadMembersBy, Value.rereadMembers, Value.rereadBy_canonical v,
      Value.rereadMembersBy_canonical fs]

end

theorem Value.itemsReadSize_eq (xs : List Value) :
    Value.itemsReadSize xs = (xs.map fun x => 1 + x.readSize).sum := by
  induction xs with
  | nil => rfl
  | cons x xs ih => simp [Value.itemsReadSize, ih, Nat.add_assoc]

theorem Value.membersReadSize_eq (fs : List (String × Value)) :
    Value.membersReadSize fs = (fs.map fun kv => 1 + kv.2.readSize).sum := by
  induction fs with
  | nil => rfl
  | cons kv fs ih => simp [Value.membersReadSize, ih, Nat.add_assoc]

theorem Writer.items_eq_map (l : Layout) (level : Nat) (xs : List Value) :
    Writer.items l level xs = xs.map (Writer.value l (level + 1)) := by
  induction xs with
  | nil => rfl
  | cons x xs ih => simp [Writer.items, ih]

theorem Writer.members_eq_map (l : Layout) (level : Nat) (fs : List (String × Value)) :
    Writer.members l level fs =
      fs.map fun kv => (kv.1, quote l.asciiOnly kv.1 ++ l.keySep ++ Writer.value l (level + 1) kv.2) := by
  induction fs with
  | nil => rfl
  | cons kv fs ih => simp [Writer.members, ih]

/-- Text that starts with a token: its first character is no blank, no
closing bracket and no byte order mark. -/
def StartsToken (cs : List Char) : Prop :=
  ∃ c r, cs = c :: r ∧ isBlank c = false ∧ c ≠ ']' ∧ c ≠ '﻿'

theorem startsToken_cons {c : Char} (r : List Char) (hc : isBlank c = false ∧ c ≠ ']' ∧ c ≠ '﻿') :
    StartsToken (c :: r) :=
  ⟨c, r, rfl, hc⟩

theorem StartsToken.append {cs : List Char} (h : StartsToken cs) (rest : List Char) :
    StartsToken (cs ++ rest) := by
  obtain ⟨c, r, rfl, hc⟩ := h
  exact ⟨c, r ++ rest, rfl, hc⟩

theorem StartsToken.intercalate {cs : List Char} (h : StartsToken cs) (sep : List Char)
    (css : List (List Char)) : StartsToken (List.intercalate sep (cs :: css)) := by
  cases css with
  | nil => rwa [List.intercalate_singleton]
  | cons _ _ =>
    rw [List.intercalate_cons_cons, List.append_assoc]
    exact h.append _

theorem skipBlanks_of_startsToken {cs : List Char} (h : StartsToken cs) (pos : Nat) :
    skipBlanks cs pos = (cs, pos) := by
  obtain ⟨c, r, rfl, hc, -⟩ := h
  exact skipBlanks_of_not_blank hc r pos

/-- A number starts with a token. -/
theorem startsToken_number {cs : List Char}
    (h : ∃ c r, cs = c :: r ∧ (c.isDigit = true ∨ c = '-' ∧ ∃ d r', r = d :: r' ∧ d.isDigit = true)) :
    StartsToken cs := by
  obtain ⟨c, r, rfl, hc⟩ := h
  replace hc : c.isDigit = true ∨ c = '-' := hc.imp_right And.left
  refine startsToken_cons r ⟨?_, ?_, ?_⟩
  · cases hb : isBlank c with
    | false => rfl
    | true =>
      simp only [isBlank, Bool.or_eq_true, beq_iff_eq] at hb
      rcases hb with ((rfl | rfl) | rfl) | rfl <;> rcases hc with hc | hc <;> exact absurd hc (by decide)
  · rintro rfl
    rcases hc with hc | hc <;> exact absurd hc (by decide)
  · rintro rfl
    rcases hc with hc | hc <;> exact absurd hc (by decide)

/-- What the round trip proves of one value: at every level its text starts
with a token, is at least as long as the fuel reading it needs, and is read
back as `v.rereadBy text` whatever follows it that cannot continue a number. -/
def ReadBack (l : Layout) (text : String → String) (v : Value) : Prop :=
  ∀ level, StartsToken (Writer.value l level v).toList ∧
    v.readSize ≤ (Writer.value l level v).toList.length ∧
    ∀ rest, Ends rest → ∀ fuel, v.readSize ≤ fuel → ∀ pos, ∃ p,
      Reader.value fuel ((Writer.value l level v).toList ++ rest) pos = .ok (v.rereadBy text, rest, p)

variable {l : Layout} {text : String → String}

/-- A value written the same way at every level, read in one step. -/
theorem readBack_scalar {v : Value} {s : String} (hsize : v.readSize = 1)
    (htext : ∀ level, Writer.value l level v = s) (hs : StartsToken s.toList)
    (hread : ∀ rest, Ends rest → ∀ fuel pos, ∃ p,
      Reader.value (fuel + 1) (s.toList ++ rest) pos = .ok (v.rereadBy text, rest, p)) :
    ReadBack l text v := by
  intro level
  rw [htext, hsize]
  refine ⟨hs, ?_, fun rest hr fuel hfuel pos => ?_⟩
  · obtain ⟨c, r, hcr, -⟩ := hs
    rw [hcr]
    simp
  obtain ⟨f, rfl⟩ : ∃ f, fuel = f + 1 := ⟨fuel - 1, by omega⟩
  exact hread rest hr f pos

theorem readBack_null : ReadBack l text .null :=
  readBack_scalar rfl (fun _ => rfl) (startsToken_cons _ (by decide)) fun rest _ fuel pos => by
    refine ⟨pos + 4, ?_⟩
    show Reader.value (fuel + 1) ('n' :: 'u' :: 'l' :: 'l' :: rest) pos = _
    rfl

theorem readBack_bool (b : Bool) : ReadBack l text (.bool b) := by
  cases b with
  | true =>
    refine readBack_scalar rfl (fun _ => rfl) (startsToken_cons _ (by decide)) fun rest _ fuel pos => ?_
    refine ⟨pos + 4, ?_⟩
    show Reader.value (fuel + 1) ('t' :: 'r' :: 'u' :: 'e' :: rest) pos = _
    rfl
  | false =>
    refine readBack_scalar rfl (fun _ => rfl) (startsToken_cons _ (by decide)) fun rest _ fuel pos => ?_
    refine ⟨pos + 5, ?_⟩
    show Reader.value (fuel + 1) ('f' :: 'a' :: 'l' :: 's' :: 'e' :: rest) pos = _
    rfl

theorem readBack_int {n : Int} (h : Issue.writable (.int n) = true) : ReadBack l text (.int n) := by
  simp only [Issue.writable, decide_eq_true_eq] at h
  refine readBack_scalar rfl (fun level => show Writer.value l level (.int n) = toString n from rfl) ?_
    fun rest hr fuel pos => value_int h hr fuel pos
  rw [← NumberText.ofInt_chars]
  simpa using startsToken_number (NumberText.chars_head (NumberText.ofInt_wellFormed n) [])

theorem readBack_float (x : Binary64) : ReadBack l text (.float x) := by
  refine readBack_scalar rfl
    (fun level => show Writer.value l level (.float x) = Decimal.Notation.jsonLike.render x from rfl) ?_
    fun rest hr fuel pos => value_render_float x hr fuel pos
  rcases render_shape x with h | h | h | ⟨t, ht, -, htext⟩
  · rw [h]; exact startsToken_cons _ (by decide)
  · rw [h]; exact startsToken_cons _ (by decide)
  · rw [h]; exact startsToken_cons _ (by decide)
  · rw [htext]
    simpa using startsToken_number (NumberText.chars_head ht [])

theorem readBack_str (hq : QuotesAs l.asciiOnly text) (s : String) : ReadBack l text (.str s) := by
  refine readBack_scalar (s := quote l.asciiOnly s) rfl (fun _ => rfl) ?_
    fun rest _ fuel pos => value_quote hq s fuel pos rest
  rw [quote_toList]
  exact startsToken_cons _ (by decide)

@[simp] theorem except_ok_bind {ε α β : Type} (a : α) (f : α → Except ε β) :
    (Except.ok a >>= f) = f a := rfl

/-- A comma can follow a number. -/
theorem ends_comma (r : List Char) : Ends (',' :: r) :=
  ⟨by decide, by decide, by decide, by decide⟩

theorem ends_close {b : List Char} (hb : Blanks b) (c : Char) (hc : c = ']' ∨ c = '}')
    (rest : List Char) : Ends (b ++ c :: rest) := by
  apply ends_blanks_append hb
  rcases hc with rfl | rfl <;> exact ⟨by decide, by decide, by decide, by decide⟩

/-- **Items separated by commas and blanks are read one by one**, up to the
closing bracket. -/
theorem items_read (level : Nat) {b₁ b₂ : List Char} (rest : List Char) (hb₁ : Blanks b₁)
    (hb₂ : Blanks b₂) :
    ∀ (xs acc : List Value) (fuel pos : Nat), xs ≠ [] → (∀ x ∈ xs, ReadBack l text x) →
      Value.itemsReadSize xs ≤ fuel →
      ∃ p, Reader.items fuel acc
        (List.intercalate (',' :: b₁) (xs.map fun x => (Writer.value l (level + 1) x).toList) ++
          b₂ ++ ']' :: rest) pos = .ok (.arr (acc.reverse ++ xs.map (Value.rereadBy text)), rest, p)
  | [], _, _, _, h, _, _ => absurd rfl h
  | x :: xs, acc, fuel, pos, _, hx, hsize => by
    obtain ⟨-, -, hread⟩ := hx x List.mem_cons_self (level + 1)
    simp only [Value.itemsReadSize] at hsize
    obtain ⟨f, rfl⟩ : ∃ f, fuel = f + 1 := ⟨fuel - 1, by omega⟩
    cases xs with
    | nil =>
      -- the last item, then blanks and the closing bracket
      obtain ⟨p, hp⟩ := hread _ (ends_close hb₂ ']' (.inl rfl) rest) f (by omega) pos
      refine ⟨p + b₂.length + 1, ?_⟩
      simp only [List.map_cons, List.map_nil, List.intercalate_singleton, List.append_assoc]
      rw [Reader.items, hp]
      simp only [except_ok_bind]
      rw [skipBlanks_blanks_append hb₂, skipBlanks_of_not_blank (by decide)]
      simp
    | cons y ys =>
      -- an item, a comma and blanks, then the next item
      have hstart := (hx y (by simp) (level + 1)).1
      obtain ⟨p, hp⟩ := hread _ (ends_comma _) f (by omega) pos
      obtain ⟨p', hp'⟩ := items_read level rest hb₁ hb₂ (y :: ys) (x.rereadBy text :: acc) f
        (p + 1 + b₁.length)
        (List.cons_ne_nil _ _) (fun z hz => hx z (List.mem_cons_of_mem x hz))
        (by simp only [Value.itemsReadSize] at hsize ⊢; omega)
      refine ⟨p', ?_⟩
      simp only [List.map_cons, List.intercalate_cons_cons, List.append_assoc, List.cons_append]
      rw [Reader.items, hp]
      simp only [except_ok_bind]
      rw [skipBlanks_of_not_blank (by decide)]
      simp only
      rw [skipBlanks_blanks_append hb₁, skipBlanks_of_startsToken ((hstart.intercalate _ _).append _)]
      simpa using hp'

/-- **Members separated by commas and blanks are read one by one**, each
name as `text` reads it back, up to the closing brace; the reader merges
repeated names. -/
theorem members_read (hl : l.Separated) (hq : QuotesAs l.asciiOnly text) (level : Nat)
    {b₁ b₂ : List Char} (rest : List Char) (hb₁ : Blanks b₁) (hb₂ : Blanks b₂) :
    ∀ (fs acc : List (String × Value)) (fuel pos : Nat), fs ≠ [] → (∀ kv ∈ fs, ReadBack l text kv.2) →
      Value.membersReadSize fs ≤ fuel →
      ∃ p, Reader.members fuel acc
        (List.intercalate (',' :: b₁) (fs.map fun kv =>
          (quote l.asciiOnly kv.1 ++ l.keySep ++ Writer.value l (level + 1) kv.2).toList) ++
          b₂ ++ '}' :: rest) pos =
        .ok (.obj (Fields.ofPairs (acc.reverse ++ fs.map fun kv => (text kv.1, kv.2.rereadBy text))),
          rest, p)
  | [], _, _, _, h, _, _ => absurd rfl h
  | (k, v) :: fs, acc, fuel, pos, _, hkv, hsize => by
    obtain ⟨bk, hsep, hbk⟩ := hl.keySep
    obtain ⟨hstart, -, hread⟩ := hkv (k, v) List.mem_cons_self (level + 1)
    dsimp only at hstart hread
    simp only [Value.membersReadSize] at hsize
    obtain ⟨f, rfl⟩ : ∃ f, fuel = f + 1 := ⟨fuel - 1, by omega⟩
    -- the member's text: its quoted name, a colon and blanks, then its value
    have hmember : ∀ more : List Char,
        (quote l.asciiOnly k ++ l.keySep ++ Writer.value l (level + 1) v).toList ++ more =
          '"' :: ((String.join ((Text.codePoints k.toList).map (escapeCode l.asciiOnly))).toList ++
            '"' :: ':' :: (bk ++ ((Writer.value l (level + 1) v).toList ++ more))) := by
      intro more
      simp only [String.toList_append, quote_toList, hsep, List.cons_append,
        List.append_assoc, List.nil_append]
    cases fs with
    | nil =>
      obtain ⟨p1, hkey⟩ := hq k pos (pos + 1)
        (':' :: (bk ++ ((Writer.value l (level + 1) v).toList ++ (b₂ ++ '}' :: rest))))
      obtain ⟨p, hp⟩ := hread _ (ends_close hb₂ '}' (.inr rfl) rest) f (by omega) (p1 + 1 + bk.length)
      refine ⟨p + b₂.length + 1, ?_⟩
      simp only [List.map_cons, List.map_nil, List.intercalate_singleton, List.append_assoc]
      rw [hmember, Reader.members.eq_2, hkey]
      simp only [except_ok_bind]
      rw [skipBlanks_of_not_blank (by decide)]
      simp only
      rw [skipBlanks_blanks_append hbk, skipBlanks_of_startsToken (hstart.append _), hp]
      simp only [except_ok_bind]
      rw [skipBlanks_blanks_append hb₂, skipBlanks_of_not_blank (by decide)]
      simp
    | cons kv' fs =>
      -- a member, a comma and blanks, then the next member
      obtain ⟨k', v'⟩ := kv'
      have hnext : StartsToken (quote l.asciiOnly k' ++ l.keySep ++ Writer.value l (level + 1) v').toList := by
        simp only [String.toList_append, quote_toList, List.cons_append]
        exact startsToken_cons _ (by decide)
      -- what follows the first member's value
      have hafter : ∃ after, after = List.intercalate (',' :: b₁)
          ((quote l.asciiOnly k' ++ l.keySep ++ Writer.value l (level + 1) v').toList ::
            fs.map fun kv => (quote l.asciiOnly kv.1 ++ l.keySep ++ Writer.value l (level + 1) kv.2).toList) ++
          (b₂ ++ '}' :: rest) := ⟨_, rfl⟩
      obtain ⟨after, hafter⟩ := hafter
      obtain ⟨p1, hkey⟩ := hq k pos (pos + 1)
        (':' :: (bk ++ ((Writer.value l (level + 1) v).toList ++ ',' :: (b₁ ++ after))))
      obtain ⟨p, hp⟩ := hread _ (ends_comma (b₁ ++ after)) f (by omega) (p1 + 1 + bk.length)
      obtain ⟨p', hp'⟩ := members_read hl hq level rest hb₁ hb₂ ((k', v') :: fs) ((text k, v.rereadBy text) :: acc) f
        (p + 1 + b₁.length) (List.cons_ne_nil _ _) (fun kv h => hkv kv (List.mem_cons_of_mem _ h))
        (by simp only [Value.membersReadSize] at hsize ⊢; omega)
      refine ⟨p', ?_⟩
      simp only [List.map_cons, List.intercalate_cons_cons, List.append_assoc, List.cons_append]
      rw [← hafter, hmember, Reader.members.eq_2, hkey]
      simp only [except_ok_bind]
      rw [skipBlanks_of_not_blank (by decide)]
      simp only
      rw [skipBlanks_blanks_append hbk, skipBlanks_of_startsToken (hstart.append _), hp]
      simp only [except_ok_bind]
      rw [skipBlanks_of_not_blank (by decide)]
      simp only
      rw [skipBlanks_blanks_append hb₁, hafter,
        skipBlanks_of_startsToken ((hnext.intercalate _ _).append _)]
      simpa using hp'

/-- Items are at least as long as the fuel they need. -/
theorem sum_le_length_intercalate {α : Type} (f : α → Nat) (g : α → List Char) (b : List Char) :
    ∀ as : List α, as ≠ [] → (∀ a ∈ as, f a ≤ (g a).length) →
      (as.map fun a => 1 + f a).sum ≤ (List.intercalate (',' :: b) (as.map g)).length + 1
  | [], h, _ => absurd rfl h
  | [a], _, h => by
    have := h a List.mem_cons_self
    simp only [List.map_cons, List.map_nil, List.sum_cons, List.sum_nil, List.intercalate_singleton]
    omega
  | a :: a' :: as, _, h => by
    have ha := h a List.mem_cons_self
    have ih := sum_le_length_intercalate f g b (a' :: as) (List.cons_ne_nil _ _)
      (fun x hx => h x (List.mem_cons_of_mem a hx))
    simp only [List.map_cons, List.sum_cons, List.intercalate_cons_cons, List.length_append,
      List.length_cons] at ih ⊢
    omega

/-- After `[` and blanks, a text that starts with a token is read as items. -/
theorem value_open_bracket {cs b : List Char} (h : StartsToken cs) (hb : Blanks b) (fuel pos : Nat) :
    Reader.value (fuel + 1) ('[' :: (b ++ cs)) pos = Reader.items fuel [] cs (pos + 1 + b.length) := by
  rw [Reader.value.eq_4]
  simp only
  rw [skipBlanks_blanks_append hb, skipBlanks_of_startsToken h]
  obtain ⟨c, r, rfl, -, hc, -⟩ := h
  simp only
  split
  · rename_i heq; cases heq; contradiction
  · rfl

/-- After `{` and blanks, a quoted name starts the members. -/
theorem value_open_brace {cs b : List Char} (hb : Blanks b) (hcs : ∃ r, cs = '"' :: r) (fuel pos : Nat) :
    Reader.value (fuel + 1) ('{' :: (b ++ cs)) pos = Reader.members fuel [] cs (pos + 1 + b.length) := by
  obtain ⟨r, rfl⟩ := hcs
  rw [Reader.value.eq_3]
  simp only
  rw [skipBlanks_blanks_append hb, skipBlanks_of_not_blank (by decide)]
  rfl

/-- **An array is read back when its items are.** -/
theorem readBack_arr (hl : l.Separated) {xs : List Value} (h : ∀ x ∈ xs, ReadBack l text x) :
    ReadBack l text (.arr xs) := by
  intro level
  simp only [Writer.value, Writer.items_eq_map]
  cases xs with
  | nil =>
    simp only [List.map_nil, Writer.enclose, String.toList_append,
      show "[".toList = ['['] from rfl, show "]".toList = [']'] from rfl]
    refine ⟨startsToken_cons _ (by decide), by decide, fun rest _ fuel hfuel pos => ?_⟩
    obtain ⟨f, rfl⟩ : ∃ f, fuel = f + 1 := ⟨fuel - 1, by simp [Value.readSize] at hfuel; omega⟩
    refine ⟨pos + 2, ?_⟩
    show Reader.value (f + 1) ('[' :: ']' :: rest) pos = _
    rw [Reader.value.eq_4]
    simp only [skipBlanks_of_not_blank (show isBlank ']' = false by decide)]
    rfl
  | cons x xs =>
    obtain ⟨b₀, b₁, b₂, hb₀, hb₁, hb₂, htext⟩ := enclose_shape hl level "[" "]"
      (List.cons_ne_nil (Writer.value l (level + 1) x) (xs.map (Writer.value l (level + 1))))
    -- the items' texts, each at the next level
    let texts := (x :: xs).map fun y => (Writer.value l (level + 1) y).toList
    have htext' : (Writer.enclose l level "[" "]" ((x :: xs).map (Writer.value l (level + 1)))).toList =
        '[' :: (b₀ ++ (List.intercalate (',' :: b₁) texts ++ (b₂ ++ [']']))) := by
      rw [List.map_cons, htext]
      simp [texts]
      rfl
    have hfirst : StartsToken (List.intercalate (',' :: b₁) texts) :=
      (h x List.mem_cons_self (level + 1)).1.intercalate _ _
    rw [htext']
    refine ⟨startsToken_cons _ (by decide), ?_, fun rest _ fuel hfuel pos => ?_⟩
    · -- the brackets hold at least one character per item and one more
      have hsum := sum_le_length_intercalate Value.readSize (fun y => (Writer.value l (level + 1) y).toList)
        b₁ (x :: xs) (List.cons_ne_nil _ _) (fun y hy => (h y hy (level + 1)).2.1)
      simp only [texts, Value.readSize, Value.itemsReadSize_eq, List.length_cons, List.length_append]
      omega
    · obtain ⟨f, rfl⟩ : ∃ f, fuel = f + 1 := ⟨fuel - 1, by simp [Value.readSize] at hfuel; omega⟩
      obtain ⟨p, hp⟩ := items_read level rest hb₁ hb₂ (x :: xs) [] f
        (pos + 1 + b₀.length) (List.cons_ne_nil _ _) h (by simp [Value.readSize] at hfuel; omega)
      refine ⟨p, ?_⟩
      simp only [List.append_assoc, List.cons_append]
      rw [value_open_bracket ((hfirst.append _)) hb₀]
      simpa [texts, Value.rereadBy] using hp

theorem intercalate_cons_append (sep t : List Char) (ts : List (List Char)) (tail : List Char) :
    ∃ r, List.intercalate sep (t :: ts) ++ tail = t ++ r := by
  cases ts with
  | nil => exact ⟨tail, by rw [List.intercalate_singleton]⟩
  | cons t' ts => exact ⟨sep ++ List.intercalate sep (t' :: ts) ++ tail, by
      rw [List.intercalate_cons_cons]; simp only [List.append_assoc]⟩

/-- **An object is read back when its members' values are**, its names as
`text` reads them back and merged as the reader merges them. -/
theorem readBack_obj (hl : l.Separated) (hq : QuotesAs l.asciiOnly text) {fs : List (String × Value)}
    (h : ∀ kv ∈ fs, ReadBack l text kv.2) : ReadBack l text (.obj fs) := by
  intro level
  simp only [Writer.value, hl.unsorted, Bool.false_eq_true, if_false, Writer.members_eq_map,
    List.map_map, Function.comp_def]
  cases fs with
  | nil =>
    simp only [List.map_nil, Writer.enclose, String.toList_append,
      show "\x7b".toList = ['\x7b'] from rfl, show "\x7d".toList = ['\x7d'] from rfl]
    refine ⟨startsToken_cons _ (by decide), by decide, fun rest _ fuel hfuel pos => ?_⟩
    obtain ⟨f, rfl⟩ : ∃ f, fuel = f + 1 := ⟨fuel - 1, by simp [Value.readSize] at hfuel; omega⟩
    refine ⟨pos + 2, ?_⟩
    show Reader.value (f + 1) ('\x7b' :: '\x7d' :: rest) pos = _
    rw [Reader.value.eq_3]
    simp only [skipBlanks_of_not_blank (show isBlank '\x7d' = false by decide)]
    rfl
  | cons kv fs =>
    -- the members' texts: quoted name, colon and blanks, value at the next level
    let member := fun kv : String × Value =>
      quote l.asciiOnly kv.1 ++ l.keySep ++ Writer.value l (level + 1) kv.2
    obtain ⟨b₀, b₁, b₂, hb₀, hb₁, hb₂, htext⟩ := enclose_shape hl level "\x7b" "\x7d"
      (List.cons_ne_nil (member kv) (fs.map member))
    let texts := (kv :: fs).map fun kv => (member kv).toList
    have htext' : (Writer.enclose l level "\x7b" "\x7d" ((kv :: fs).map member)).toList =
        '\x7b' :: (b₀ ++ (List.intercalate (',' :: b₁) texts ++ (b₂ ++ ['\x7d']))) := by
      rw [List.map_cons, htext]
      simp [texts]
      rfl
    have hmember_le : ∀ kv : String × Value, (Writer.value l (level + 1) kv.2).toList.length ≤
        (member kv).toList.length := by
      intro kv
      simp only [member, String.toList_append, List.length_append]
      omega
    rw [show (kv :: fs).map (fun kv => quote l.asciiOnly kv.1 ++ l.keySep ++
      Writer.value l (level + 1) kv.2) = (kv :: fs).map member from rfl, htext']
    refine ⟨startsToken_cons _ (by decide), ?_, fun rest _ fuel hfuel pos => ?_⟩
    · -- the braces hold at least one character per member and one more
      have hsum := sum_le_length_intercalate (fun kv : String × Value => kv.2.readSize)
        (fun kv => (member kv).toList) b₁ (kv :: fs) (List.cons_ne_nil _ _)
        (fun y hy => Nat.le_trans (h y hy (level + 1)).2.1 (hmember_le y))
      simp only [texts, Value.readSize, Value.membersReadSize_eq, List.length_cons, List.length_append]
      omega
    · obtain ⟨f, rfl⟩ : ∃ f, fuel = f + 1 := ⟨fuel - 1, by simp [Value.readSize] at hfuel; omega⟩
      obtain ⟨p, hp⟩ := members_read hl hq level rest hb₁ hb₂ (kv :: fs) [] f
        (pos + 1 + b₀.length) (List.cons_ne_nil _ _) h (by simp [Value.readSize] at hfuel; omega)
      -- the first member starts with the quote of its name
      obtain ⟨r, hr⟩ := intercalate_cons_append (',' :: b₁) (member kv).toList
        (fs.map fun kv => (member kv).toList) (b₂ ++ '\x7d' :: rest)
      have hquote : ∃ r', List.intercalate (',' :: b₁) texts ++ (b₂ ++ '\x7d' :: rest) = '"' :: r' := by
        rw [show List.intercalate (',' :: b₁) texts ++ (b₂ ++ '\x7d' :: rest) = (member kv).toList ++ r
          from hr]
        simp only [member, String.toList_append, quote_toList, List.cons_append]
        exact ⟨_, rfl⟩
      refine ⟨p, ?_⟩
      simp only [List.append_assoc, List.cons_append, List.nil_append]
      rw [value_open_brace hb₀ hquote]
      simpa [texts, member, Value.rereadBy] using hp

mutual

/-- **Every writable value is read back**, at every level of a separated
layout whose quoted texts are read back by `text`. -/
theorem readBack (hl : l.Separated) (hq : QuotesAs l.asciiOnly text) :
    ∀ v : Value, Issue.writable v = true → ReadBack l text v
  | .null, _ => readBack_null
  | .bool b, _ => readBack_bool b
  | .int _, h => readBack_int h
  | .float x, _ => readBack_float x
  | .str s, _ => readBack_str hq s
  | .arr xs, h => readBack_arr hl (readBack_items hl hq xs (by simpa [Issue.writable] using h))
  | .obj fs, h => readBack_obj hl hq (readBack_members hl hq fs (by simpa [Issue.writable] using h))

theorem readBack_items (hl : l.Separated) (hq : QuotesAs l.asciiOnly text) :
    ∀ xs : List Value, Issue.writableItems xs = true → ∀ x ∈ xs, ReadBack l text x
  | [], _ => fun _ hx => absurd hx List.not_mem_nil
  | x :: xs, h => by
    rw [Issue.writableItems, Bool.and_eq_true] at h
    exact List.forall_mem_cons.2 ⟨readBack hl hq x h.1, readBack_items hl hq xs h.2⟩

theorem readBack_members (hl : l.Separated) (hq : QuotesAs l.asciiOnly text) :
    ∀ fs : List (String × Value), Issue.writableMembers fs = true → ∀ kv ∈ fs, ReadBack l text kv.2
  | [], _ => fun _ hx => absurd hx List.not_mem_nil
  | (_, v) :: fs, h => by
    rw [Issue.writableMembers, Bool.and_eq_true] at h
    exact List.forall_mem_cons.2 ⟨readBack hl hq v h.1, readBack_members hl hq fs h.2⟩

end

/-- **Reading a written value gives it back**, its texts as `text` reads them
back and each double as its written digits stand for it, when every integer
in it can be written. -/
theorem decode_renderBy (hl : l.Separated) (hq : QuotesAs l.asciiOnly text) (v : Value)
    (hv : Issue.writable v = true) : Value.decode (v.render l) = .ok (v.rereadBy text) := by
  obtain ⟨hstart, hsize, hread⟩ := readBack hl hq v hv 0
  obtain ⟨p, hp⟩ := hread [] trivial (2 * (Writer.value l 0 v).toList.length + 4) (by omega) 0
  rw [List.append_nil] at hp
  obtain ⟨c, r, hcr, hc, -, hbom⟩ := hstart
  unfold Value.decode Value.render
  rw [hcr] at hp ⊢
  dsimp only
  split
  · rename_i heq
    cases heq
    exact absurd rfl hbom
  · rw [skipBlanks_of_not_blank hc]
    simp only
    rw [hp]
    rfl

/-- **Reading a written value gives it back**, up to the canonical form of its
texts and the double its written digits stand for, when every integer in it
can be written. -/
theorem decode_render (hl : l.Readable) (v : Value) (hv : Issue.writable v = true) :
    Value.decode (v.render l) = .ok v.reread := by
  have hq : QuotesAs l.asciiOnly Text.canonical := by
    rw [hl.plain]
    exact quotesAs_canonical
  rw [← Value.rereadBy_canonical]
  exact decode_renderBy hl.toSeparated hq v hv

end Json

end NodeFlow
