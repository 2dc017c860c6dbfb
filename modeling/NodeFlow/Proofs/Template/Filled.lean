import NodeFlow.Proofs.Template.Text
/-!
# Filling from an object of values

Values given as an object are looked up without failure (`lookup_obj`), so
filling a graph from them always succeeds, and what it gives is a plain
function of the graph (`fill_obj`): every input is filled on its own
(`filledInput`), and the placeholders filled and left open are those of the
inputs in turn, sorted.

The bookkeeping is read off that form (`fill_bookkeeping`). A placeholder is
filled exactly when the values supply it and left open otherwise, so no name is
both; together they are the graph's placeholders and, when an image is
supplied and some literal holds the old fixed file name, the image
placeholder; the warnings name the open ones in code point order.

Filling a text is not closed under reading it again. Braces left around a
placeholder close around the value written into it: `{{{{a}}}}` filled with
`a = b` reads `{{b}}`, a placeholder nobody reported (`fill_forms_placeholder`).
When every opening brace of a text belongs to one of its placeholders and no
value's text has a brace, the placeholders of the filled text are exactly its
open ones (`placeholderNames_renderIn`).
-/

namespace NodeFlow

open Json

/-! ## Code point order -/

namespace Text

theorem codesLE_total : ∀ a b : List Nat, (codesLE a b || codesLE b a) = true
  | [], _ => by simp [codesLE]
  | _ :: _, [] => by simp [codesLE]
  | a :: as, b :: bs => by
    by_cases hab : a < b
    · simp [codesLE, hab]
    · by_cases hba : b < a
      · simp [codesLE, hba]
      · simpa [codesLE, hab, hba] using codesLE_total as bs

theorem codesLE_trans : ∀ a b c : List Nat, codesLE a b = true → codesLE b c = true → codesLE a c = true
  | [], _, _, _, _ => rfl
  | _ :: _, [], _, hab, _ => by simp [codesLE] at hab
  | _ :: _, _ :: _, [], _, hbc => by simp [codesLE] at hbc
  | a :: as, b :: bs, c :: cs, hab, hbc => by
    unfold codesLE at hab hbc ⊢
    -- the first code points decide unless they are equal, and then the rests do
    by_cases h1 : a < b
    · have : a < c := by split at hbc <;> (try split at hbc) <;> simp_all <;> omega
      simp [this]
    · by_cases h2 : b < a
      · simp [h1, h2] at hab
      · have hba : a = b := by omega
        subst hba
        by_cases h3 : a < c
        · simp [h3]
        · by_cases h4 : c < a
          · simp [h3, h4] at hbc
          · simp only [h1, h3, h4, if_false] at hab hbc ⊢
            exact codesLE_trans as bs cs hab hbc

theorem codeLE_total (a b : String) : (codeLE a b || codeLE b a) = true := codesLE_total _ _

theorem codeLE_trans (a b c : String) (hab : codeLE a b = true) (hbc : codeLE b c = true) :
    codeLE a c = true :=
  codesLE_trans _ _ _ hab hbc

end Text

/-- The placeholders an input value holds as a literal: those of a text. -/
def InputValue.textNames : InputValue → List String
  | .literal (.str text) => Template.placeholderNames text
  | _ => []

namespace Template

/-- Dropping repeats from a list whose members stand pairwise in a relation
leaves them pairwise related and distinct. -/
theorem pairwise_eraseDups {R : String → String → Prop} :
    ∀ {l : List String}, l.Pairwise R → l.eraseDups.Pairwise (fun a b => R a b ∧ a ≠ b)
  | [], _ => List.Pairwise.nil
  | a :: as, h => by
    rw [List.eraseDups_cons]
    have hrest : (as.filter fun b => !b == a).Pairwise R :=
      (List.pairwise_cons.1 h).2.sublist List.filter_sublist
    refine List.pairwise_cons.2 ⟨fun b hb => ?_, pairwise_eraseDups hrest⟩
    obtain ⟨hmem, hne⟩ := List.mem_filter.1 (List.mem_eraseDups.1 hb)
    exact ⟨(List.pairwise_cons.1 h).1 b hmem, fun hab => by simp [hab] at hne⟩
termination_by l => l.length
decreasing_by exact Nat.lt_succ_of_le (List.length_filter_le _ _)

/-- **Sorted names ascend strictly in code point order.** -/
theorem sortedNames_ascending (names : List String) :
    (sortedNames names).Pairwise (fun a b => Text.codeLE a b = true ∧ a ≠ b) :=
  pairwise_eraseDups (List.pairwise_mergeSort Text.codeLE_trans Text.codeLE_total names)

/-! ## Looking up in an object -/

variable {fs : Fields} {name x : String}

/-- What looking a placeholder up in an object of values finds: the member
named by it, else the member named by the field key it lands on. -/
def lookupIn (fs : Fields) (name : String) : Option Value :=
  if fs.any (·.1 == name) then some ((Fields.get? fs name).getD .null)
  else match placeholderKeys.lookup name with
    | some key => if fs.any (·.1 == key) then some ((Fields.get? fs key).getD .null) else none
    | none => none

theorem lookup_obj (fs : Fields) (name : String) : lookup (.obj fs) name = .ok (lookupIn fs name) := by
  unfold lookup lookupIn
  rw [holdsName_obj, MappingState.ok_bind]
  by_cases hname : fs.any (·.1 == name) = true
  · rw [if_pos hname, if_pos hname]
    rfl
  · rw [if_neg hname, if_neg hname]
    -- not named by the placeholder: try the field key it lands on
    cases placeholderKeys.lookup name with
    | none => rfl
    | some key =>
      dsimp only
      rw [holdsName_obj, MappingState.ok_bind]
      by_cases hkey : fs.any (·.1 == key) = true
      · rw [if_pos hkey, if_pos hkey]
        rfl
      · rw [if_neg hkey, if_neg hkey]
        rfl

/-- The values supply a placeholder exactly when looking it up finds something. -/
theorem lookupIn_isSome_iff : (lookupIn fs name).isSome ↔ Supplies (fs.map (·.1)) name := by
  constructor
  · intro h
    obtain ⟨v, hv⟩ := Option.isSome_iff_exists.1 h
    exact supplies_of_lookup (by rw [lookup_obj, hv])
  · rintro (hmem | ⟨key, hkey, hmem⟩)
    · simp [lookupIn, any_name_iff.2 hmem]
    · unfold lookupIn
      split
      · rfl
      · rw [hkey]
        simp [any_name_iff.2 hmem]

/-- A value found is one of the values. -/
theorem mem_of_lookupIn {v : Value} (h : lookupIn fs name = some v) : ∃ kv ∈ fs, kv.2 = v := by
  -- a member found by name has a first such member, whose value is read
  have hfound : ∀ k, fs.any (·.1 == k) = true → ∃ kv ∈ fs, kv.2 = (Fields.get? fs k).getD .null := by
    intro k hk
    obtain ⟨q, hq⟩ := Option.isSome_iff_exists.1 (List.find?_isSome.2 (List.any_eq_true.1 hk))
    exact ⟨q, List.mem_of_find?_eq_some hq, by rw [Fields.get?, hq]; rfl⟩
  unfold lookupIn at h
  split at h
  · rename_i hk
    cases h
    exact hfound name hk
  · split at h
    · split at h
      · rename_i hk
        cases h
        exact hfound _ hk
      · cases h
    · cases h

/-- A value found among values that can all be written out can be written out. -/
theorem writable_of_lookupIn (hw : ∀ kv ∈ fs, Issue.writable kv.2 = true) {v : Value}
    (h : lookupIn fs name = some v) : Issue.writable v = true := by
  obtain ⟨kv, hkv, rfl⟩ := mem_of_lookupIn h
  exact hw kv hkv

/-! ## Reading braces -/

/-- A placeholder is read only where two opening braces stand. -/
theorem slotAt_of_ne {c : Char} (hc : c ≠ '{') (cs : List Char) : slotAt (c :: cs) = none := by
  unfold slotAt
  split
  · rename_i h
    exact absurd (List.cons.inj h).1 hc
  · rfl

/-- A name read at two opening braces is a placeholder name. -/
theorem isName_of_slotAt {cs rest : List Char} (h : slotAt cs = some (name, rest)) : isName name = true := by
  unfold slotAt at h
  split at h
  · rename_i r
    dsimp only at h
    split at h
    · rename_i c cs' _ htake _
      obtain ⟨rfl, -⟩ := Prod.mk.inj (Option.some.inj h)
      have hall : (r.takeWhile isNameChar).all isNameChar = true := List.all_takeWhile
      rw [htake] at hall
      -- the name read is the run of name characters, which is not empty
      rw [isName, String.toList_ofList, htake, hall, Bool.and_true, Bool.not_eq_true', Bool.eq_false_iff,
        ne_eq, String.isEmpty_iff]
      intro h
      simpa using congrArg String.toList h
    · cases h
  · cases h

theorem slotAt_slotText_append (h : isName name = true) (rest : List Char) :
    slotAt ((slotText name).toList ++ rest) = some (name, rest) := by
  have hne : name.toList ≠ [] := by
    intro hnil
    simp [isName, String.toList_eq_nil_iff.1 hnil] at h
  have hall : ∀ c ∈ name.toList, isNameChar c = true := by
    simpa [isName] using (Bool.and_eq_true_iff.1 h).2
  -- the name is read up to the closing braces, which are no name characters
  have htake : (name.toList ++ '}' :: '}' :: rest).takeWhile isNameChar = name.toList := by
    rw [List.takeWhile_append_of_pos hall]
    simp [isNameChar]
  have hdrop : (name.toList ++ '}' :: '}' :: rest).dropWhile isNameChar = '}' :: '}' :: rest := by
    rw [List.dropWhile_append_of_pos hall]
    simp [isNameChar]
  obtain ⟨c, cs, hcs⟩ := List.exists_cons_of_ne_nil hne
  rw [slotText_toList]
  simp only [List.cons_append, List.append_assoc, List.nil_append]
  rw [slotAt.eq_1, htake, hdrop, hcs]
  show some (String.ofList (c :: cs), rest) = some (name, rest)
  rw [← hcs, String.ofList_toList]

/-- The names of placeholder pieces. -/
def slotNames (ps : List Piece) : List String := ps.filterMap Piece.slotName?

@[simp] theorem slotNames_nil : slotNames [] = [] := rfl

@[simp] theorem slotNames_plain (t : String) (ps : List Piece) : slotNames (.plain t :: ps) = slotNames ps := rfl

@[simp] theorem slotNames_slot (n : String) (ps : List Piece) : slotNames (.slot n :: ps) = n :: slotNames ps := rfl

theorem slotNames_withPlain (run : List Char) (ps : List Piece) : slotNames (withPlain run ps) = slotNames ps := by
  unfold withPlain
  split <;> rfl

theorem slotNames_piecesOfChars_nil (fuel : Nat) (run : List Char) : slotNames (piecesOfChars fuel run []) = [] := by
  cases fuel <;> exact slotNames_withPlain _ _

/-- Characters without an opening brace only lengthen the plain run. -/
theorem piecesOfChars_plain_append :
    ∀ (cs rest : List Char) (fuel : Nat) (run : List Char), '{' ∉ cs → cs.length + rest.length < fuel →
      piecesOfChars fuel run (cs ++ rest) = piecesOfChars (fuel - cs.length) (run ++ cs) rest
  | [], _, _, _, _, _ => by simp
  | c :: cs, rest, fuel + 1, run, hc, hlen => by
    have hne : c ≠ '{' := fun h => hc (h ▸ List.mem_cons_self)
    rw [List.cons_append, piecesOfChars, slotAt_of_ne hne]
    dsimp only
    rw [piecesOfChars_plain_append cs rest fuel (run ++ [c]) (fun h => hc (List.mem_cons_of_mem c h))
      (by simp at hlen; omega)]
    simp [List.append_assoc]
  | _ :: _, _, 0, _, _, hlen => absurd hlen (Nat.not_lt_zero _)

/-- A written placeholder is read as one. -/
theorem piecesOfChars_slotText (h : isName name = true) (fuel : Nat) (run rest : List Char) :
    piecesOfChars (fuel + 1) run ((slotText name).toList ++ rest) =
      withPlain run (.slot name :: piecesOfChars fuel [] rest) := by
  have hslot := slotAt_slotText_append h rest
  rw [slotText_toList] at hslot ⊢
  simp only [List.cons_append] at hslot ⊢
  rw [piecesOfChars, hslot]

/-- **A text with no opening brace holds no placeholder.** -/
theorem placeholderNames_of_brace_free {text : String} (h : '{' ∉ text.toList) : placeholderNames text = [] := by
  show slotNames (piecesOfChars (text.length + 1) [] text.toList) = []
  have hsplit := piecesOfChars_plain_append text.toList [] (text.length + 1) [] h
    (by simp [String.length_toList])
  rw [List.append_nil] at hsplit
  rw [hsplit, slotNames_piecesOfChars_nil]

/-- Every placeholder piece of a text carries a placeholder name. -/
theorem isName_of_mem_piecesOfChars :
    ∀ (fuel : Nat) (run cs : List Char), Piece.slot name ∈ piecesOfChars fuel run cs → isName name = true
  | 0, run, _, h => by simp [piecesOfChars, withPlain] at h
  | _ + 1, run, [], h => by simp [piecesOfChars, withPlain] at h
  | fuel + 1, run, c :: cs, h => by
    rw [piecesOfChars] at h
    split at h
    · rename_i n rest hslot
      -- the piece is the one read here, or one read further on
      have hmem : Piece.slot name ∈ Piece.slot n :: piecesOfChars fuel [] rest := by
        unfold withPlain at h
        split at h
        · exact h
        · exact (List.mem_cons.1 h).resolve_left (by simp)
      rcases List.mem_cons.1 hmem with he | hmem
      · cases he
        exact isName_of_slotAt hslot
      · exact isName_of_mem_piecesOfChars fuel [] rest hmem
    · exact isName_of_mem_piecesOfChars fuel _ cs h

theorem isName_of_mem_pieces {text : String} (h : Piece.slot name ∈ pieces text) : isName name = true :=
  isName_of_mem_piecesOfChars _ _ _ h

/-! ## Filling one text -/

/-- A piece as filling writes it: a placeholder with a value gives the value's
text, one without stays written. -/
def renderIn (fs : Fields) : Piece → String
  | .plain t => t
  | .slot name => match lookupIn fs name with
    | some v => v.display
    | none => slotText name

/-- What filling one text from an object gives. -/
def textFill (fs : Fields) (text : String) : TextFill :=
  match wholePlaceholder? text with
  | some name => match lookupIn fs name with
    | some v => ⟨v, [name], []⟩
    | none => ⟨.str text, [], [name]⟩
  | none =>
    ⟨.str (String.join ((pieces text).map (renderIn fs))),
      (placeholderNames text).filter fun n => (lookupIn fs n).isSome,
      (placeholderNames text).filter fun n => (lookupIn fs n).isNone⟩

/-- Filling pieces from an object renders each in turn, and sorts their
placeholders into those found and those left open, when the step writes out
every value found for a placeholder of the pieces. -/
theorem foldlM_pieces_obj {F : String × List String × List String → Piece → Outcome (String × List String × List String)}
    (hplain : ∀ acc t, F acc (.plain t) = .ok (acc.1 ++ t, acc.2))
    (hopen : ∀ acc n, lookupIn fs n = none → F acc (.slot n) = .ok (acc.1 ++ slotText n, acc.2.1, acc.2.2 ++ [n])) :
    ∀ ps : List Piece, (∀ acc n v, n ∈ slotNames ps → lookupIn fs n = some v →
        F acc (.slot n) = .ok (acc.1 ++ v.display, acc.2.1 ++ [n], acc.2.2)) →
      ∀ acc : String × List String × List String,
      ps.foldlM F acc = .ok (acc.1 ++ String.join (ps.map (renderIn fs)),
        acc.2.1 ++ (slotNames ps).filter (fun n => (lookupIn fs n).isSome),
        acc.2.2 ++ (slotNames ps).filter (fun n => (lookupIn fs n).isNone))
  | [], _, acc => by simp; rfl
  | .plain t :: ps, hfound, acc => by
    rw [List.foldlM_cons, hplain, MappingState.ok_bind,
      foldlM_pieces_obj hplain hopen ps fun acc n v hn => hfound acc n v (by simpa using hn)]
    simp [renderIn, String.append_assoc]
  | .slot n :: ps, hfound, acc => by
    have hrest : ∀ acc m v, m ∈ slotNames ps → lookupIn fs m = some v →
        F acc (.slot m) = .ok (acc.1 ++ v.display, acc.2.1 ++ [m], acc.2.2) :=
      fun acc m v hm => hfound acc m v (by simp [hm])
    cases hv : lookupIn fs n with
    | none =>
      rw [List.foldlM_cons, hopen acc n hv, MappingState.ok_bind, foldlM_pieces_obj hplain hopen ps hrest]
      simp [renderIn, hv, String.append_assoc]
    | some v =>
      rw [List.foldlM_cons, hfound acc n v (by simp) hv, MappingState.ok_bind, foldlM_pieces_obj hplain hopen ps hrest]
      simp [renderIn, hv, String.append_assoc]

/-- **Filling a text from an object is a plain function of the text**, when
every value found for one of its placeholders can be written out. -/
theorem fillText_obj (fs : Fields) (text : String)
    (hw : ∀ n v, n ∈ placeholderNames text → lookupIn fs n = some v → Issue.writable v = true) :
    fillText (.obj fs) text = .ok (textFill fs text) := by
  unfold fillText textFill
  cases wholePlaceholder? text with
  | some n =>
    dsimp only
    rw [lookup_obj, MappingState.ok_bind]
    cases lookupIn fs n <;> rfl
  | none =>
    dsimp only
    -- a value found for a placeholder inside the text is written out as its display text
    rw [@foldlM_pieces_obj fs _ (fun _ _ => rfl) (fun acc n hv => by simp only [lookup_obj, hv]; rfl) _
      (fun acc n v hn hv => by
        simp only [lookup_obj, hv, MappingState.ok_bind, Value.textBy_of_writable (hw n v hn hv)]
        rfl) _, MappingState.ok_bind]
    rfl

theorem mem_textFill_filled {text : String} :
    x ∈ (textFill fs text).filled ↔ x ∈ placeholderNames text ∧ (lookupIn fs x).isSome := by
  unfold textFill
  cases hw : wholePlaceholder? text with
  | some n =>
    have hnames : placeholderNames text = [n] := by
      rw [placeholderNames_eq, (eq_slotText_of_wholePlaceholder? hw).1]
      rfl
    dsimp only
    rw [hnames, List.mem_singleton]
    cases hv : lookupIn fs n with
    | none =>
      refine ⟨fun h => absurd h List.not_mem_nil, ?_⟩
      rintro ⟨rfl, hs⟩
      simp [hv] at hs
    | some v =>
      refine ⟨fun h => ?_, fun h => List.mem_singleton.2 h.1⟩
      rw [List.mem_singleton.1 h, hv]
      exact ⟨rfl, rfl⟩
  | none => simp

theorem mem_textFill_unfilled {text : String} :
    x ∈ (textFill fs text).unfilled ↔ x ∈ placeholderNames text ∧ (lookupIn fs x).isNone := by
  unfold textFill
  cases hw : wholePlaceholder? text with
  | some n =>
    have hnames : placeholderNames text = [n] := by
      rw [placeholderNames_eq, (eq_slotText_of_wholePlaceholder? hw).1]
      rfl
    dsimp only
    rw [hnames, List.mem_singleton]
    cases hv : lookupIn fs n with
    | none =>
      refine ⟨fun h => ?_, fun h => List.mem_singleton.2 h.1⟩
      rw [List.mem_singleton.1 h, hv]
      exact ⟨rfl, rfl⟩
    | some v =>
      refine ⟨fun h => absurd h List.not_mem_nil, ?_⟩
      rintro ⟨rfl, hs⟩
      simp [hv] at hs
  | none => simp

/-- A text without placeholders comes out of filling as it went in. -/
theorem textFill_of_names_nil {text : String} (h : placeholderNames text = []) :
    textFill fs text = ⟨.str text, [], []⟩ := by
  have hfill : fillText (.obj fs) text = .ok ⟨.str text, [], placeholderNames text⟩ :=
    fillText_unsupplied (by simp [h])
  rw [fillText_obj fs text fun _ _ hn => by simp [h] at hn, h] at hfill
  exact Except.ok.inj hfill

/-- Every opening brace of a text belongs to one of its placeholders. -/
def BracesInSlots (text : String) : Prop := ∀ t, Piece.plain t ∈ pieces text → '{' ∉ t.toList

/-- Rendered pieces whose plain runs and found values have no opening brace
read as the placeholders left open, in order. -/
theorem slotNames_renderIn (hvals : ∀ n v, lookupIn fs n = some v → '{' ∉ v.display.toList) :
    ∀ (ps : List Piece) (fuel : Nat) (run : List Char),
      (∀ t, Piece.plain t ∈ ps → '{' ∉ t.toList) → (∀ n, Piece.slot n ∈ ps → isName n = true) →
      (String.join (ps.map (renderIn fs))).toList.length < fuel →
      slotNames (piecesOfChars fuel run (String.join (ps.map (renderIn fs))).toList) =
        (slotNames ps).filter fun n => (lookupIn fs n).isNone
  | [], fuel, run, _, _, _ => by simp [slotNames_piecesOfChars_nil]
  | .plain t :: ps, fuel, run, hplain, hnames, hlen => by
    simp only [List.map_cons, String.join_cons, String.toList_append, renderIn] at hlen ⊢
    rw [List.length_append] at hlen
    rw [piecesOfChars_plain_append _ _ _ _ (hplain t List.mem_cons_self) hlen,
      slotNames_renderIn hvals ps _ _ (fun t' ht => hplain t' (List.mem_cons_of_mem _ ht))
        (fun n hn => hnames n (List.mem_cons_of_mem _ hn)) (by omega)]
    rfl
  | .slot n :: ps, fuel, run, hplain, hnames, hlen => by
    have hplain' : ∀ t, Piece.plain t ∈ ps → '{' ∉ t.toList := fun t ht => hplain t (List.mem_cons_of_mem _ ht)
    have hnames' : ∀ m, Piece.slot m ∈ ps → isName m = true := fun m hm => hnames m (List.mem_cons_of_mem _ hm)
    simp only [List.map_cons, String.join_cons, String.toList_append] at hlen ⊢
    cases hv : lookupIn fs n with
    | none =>
      -- a placeholder left open is written again and read again
      obtain ⟨fuel, rfl⟩ : ∃ f, fuel = f + 1 := Nat.exists_eq_add_one.2 (by omega)
      simp only [renderIn, hv] at hlen ⊢
      simp only [List.length_append, slotText_toList, List.length_cons] at hlen
      rw [piecesOfChars_slotText (hnames n List.mem_cons_self), slotNames_withPlain, slotNames_slot,
        slotNames_renderIn hvals ps _ _ hplain' hnames' (by omega)]
      simp [hv]
    | some v =>
      simp only [renderIn, hv] at hlen ⊢
      rw [List.length_append] at hlen
      rw [piecesOfChars_plain_append _ _ _ _ (hvals n v hv) hlen,
        slotNames_renderIn hvals ps _ _ hplain' hnames' (by omega)]
      simp [hv]

/-- **The placeholders of a filled text are its open ones**, when every
opening brace of the text belongs to a placeholder and no value found has
one. -/
theorem placeholderNames_renderIn {text : String} (htext : BracesInSlots text)
    (hvals : ∀ n v, lookupIn fs n = some v → '{' ∉ v.display.toList) :
    placeholderNames (String.join ((pieces text).map (renderIn fs))) =
      (placeholderNames text).filter fun n => (lookupIn fs n).isNone :=
  slotNames_renderIn hvals _ _ _ htext (fun _ hn => isName_of_mem_pieces hn)
    (by simp [String.length_toList])

/-! ## Filling every input -/

/-- An input as filling from an object leaves it, with the placeholders it
filled and the ones it left open. -/
def filledInput (fs : Fields) (image : Option Value) (p : String × InputValue) :
    (String × InputValue) × List String × List String :=
  match p.2, image with
  | .literal (.str text), some img =>
    if text == defaultImageName then ((p.1, .literal img), ["image_filename"], [])
    else ((p.1, .literal (textFill fs text).value), (textFill fs text).filled, (textFill fs text).unfilled)
  | .literal (.str text), none =>
    ((p.1, .literal (textFill fs text).value), (textFill fs text).filled, (textFill fs text).unfilled)
  | _, _ => (p, [], [])

/-- A node as filling from an object leaves it, with the placeholders its
inputs filled and left open, in input order. -/
def filledNode (fs : Fields) (image : Option Value) (n : Node) : Node × List String × List String :=
  ({ n with inputs := n.inputs.map fun p => (filledInput fs image p).1 },
    n.inputs.flatMap fun p => (filledInput fs image p).2.1,
    n.inputs.flatMap fun p => (filledInput fs image p).2.2)

end Template

namespace Graph

/-- A graph as filling from an object leaves it. -/
def fillFrom (g : Graph) (fs : Fields) : FillOutcome :=
  let image := Template.lookupIn fs "image_filename"
  let unfilled := Template.sortedNames (g.nodes.flatMap fun n => (Template.filledNode fs image n).2.2)
  { graph := { g with nodes := g.nodes.map fun n => (Template.filledNode fs image n).1 }
    filled := Template.sortedNames (g.nodes.flatMap fun n => (Template.filledNode fs image n).2.1)
    unfilled := unfilled
    warnings := unfilled.map fun name => "No value supplied for placeholder " ++ Template.slotText name }

end Graph

namespace Template

variable {fs : Fields} {x : String}

/-- A fold that appends one image and two lists per element ends with the
images and the lists joined. -/
theorem foldlM_append_pure {α β : Type} {F : List β × List String × List String → α → Outcome (List β × List String × List String)}
    (f : α → β × List String × List String)
    (hF : ∀ acc a, F acc a = .ok (acc.1 ++ [(f a).1], acc.2.1 ++ (f a).2.1, acc.2.2 ++ (f a).2.2)) :
    ∀ (l : List α) (acc : List β × List String × List String),
      l.foldlM F acc = .ok (acc.1 ++ l.map (fun a => (f a).1), acc.2.1 ++ l.flatMap (fun a => (f a).2.1),
        acc.2.2 ++ l.flatMap (fun a => (f a).2.2))
  | [], acc => by simp; rfl
  | a :: l, acc => by
    rw [List.foldlM_cons, hF, MappingState.ok_bind, foldlM_append_pure f hF l]
    simp

theorem fillInput_obj (hw : ∀ kv ∈ fs, Issue.writable kv.2 = true) (image : Option Value)
    (acc : Inputs × List String × List String) (p : String × InputValue) :
    Node.fillInput (.obj fs) image acc p =
      .ok (acc.1 ++ [(filledInput fs image p).1], acc.2.1 ++ (filledInput fs image p).2.1,
        acc.2.2 ++ (filledInput fs image p).2.2) := by
  obtain ⟨name, v⟩ := p
  match v, image with
  | .literal (.str text), some img =>
    unfold Node.fillInput filledInput
    dsimp only
    by_cases hd : (text == defaultImageName) = true
    · rw [if_pos hd, if_pos hd, List.append_nil]
      rfl
    · rw [if_neg hd, if_neg hd, fillText_obj fs text fun _ _ _ hv => writable_of_lookupIn hw hv,
        MappingState.ok_bind]
      rfl
  | .literal (.str text), none =>
    unfold Node.fillInput filledInput
    dsimp only
    rw [fillText_obj fs text fun _ _ _ hv => writable_of_lookupIn hw hv, MappingState.ok_bind]
    rfl
  | .literal .null, _ | .literal (.bool _), _ | .literal (.int _), _ | .literal (.float _), _
  | .literal (.arr _), _ | .literal (.obj _), _ | .connection _ _, _ | .unconnected _, _ =>
    unfold Node.fillInput filledInput
    dsimp only
    rw [List.append_nil, List.append_nil]
    rfl

theorem fill_node_obj (hw : ∀ kv ∈ fs, Issue.writable kv.2 = true) (image : Option Value) (n : Node) :
    n.fill (.obj fs) image = .ok (filledNode fs image n) := by
  unfold Node.fill
  rw [foldlM_append_pure (filledInput fs image) (fillInput_obj hw image) n.inputs ([], [], []), MappingState.ok_bind]
  rfl

end Template

namespace Graph

/-- **Filling from an object succeeds, as a plain function of the graph**, when
every value can be written out. -/
theorem fill_obj (g : Graph) (fs : Fields) (hw : ∀ kv ∈ fs, Issue.writable kv.2 = true) :
    g.fill (.obj fs) = .ok (g.fillFrom fs) := by
  unfold fill
  rw [Template.lookup_obj, MappingState.ok_bind,
    Template.foldlM_append_pure (Template.filledNode fs (Template.lookupIn fs "image_filename"))
      (fun acc n => by rw [fillNode, Template.fill_node_obj hw, MappingState.ok_bind]; rfl) g.nodes ([], [], []),
    MappingState.ok_bind]
  rfl

end Graph

/-! ## The bookkeeping of filling -/

namespace Template

variable {fs : Fields} {x : String} {image : Option Value}

theorem placeholderNames_defaultImageName : placeholderNames defaultImageName = [] :=
  placeholderNames_of_brace_free (by simp [defaultImageName])

/-- A literal whose text has no opening brace holds no placeholder. -/
theorem textNames_literal_of_brace_free {v : Value} (h : '{' ∉ v.display.toList) :
    (InputValue.literal v).textNames = [] := by
  cases v with
  | str s => exact placeholderNames_of_brace_free h
  | null | bool _ | int _ | float _ | arr _ | obj _ => rfl

/-- An input fills the placeholders of its text that the values supply, and the
image placeholder when it holds the old fixed file name and an image is
supplied. -/
theorem mem_filledInput_filled {p : String × InputValue} :
    x ∈ (filledInput fs image p).2.1 ↔
      (x ∈ p.2.textNames ∧ (lookupIn fs x).isSome) ∨
        (x = "image_filename" ∧ image.isSome ∧ p.2 = .literal (.str defaultImageName)) := by
  obtain ⟨name, v⟩ := p
  match v, image with
  | .literal (.str text), some img =>
    by_cases hd : (text == defaultImageName) = true
    · have ht : text = defaultImageName := by simpa using hd
      subst ht
      simp [filledInput, InputValue.textNames, placeholderNames_defaultImageName]
    · have ht : text ≠ defaultImageName := by simpa using hd
      simp only [filledInput, if_neg hd, mem_textFill_filled, InputValue.textNames]
      simp [ht]
  | .literal (.str text), none => simp [filledInput, mem_textFill_filled, InputValue.textNames]
  | .literal .null, _ | .literal (.bool _), _ | .literal (.int _), _ | .literal (.float _), _
  | .literal (.arr _), _ | .literal (.obj _), _ | .connection _ _, _ | .unconnected _, _ =>
    simp [filledInput, InputValue.textNames]

/-- An input leaves open the placeholders of its text that the values do not supply. -/
theorem mem_filledInput_unfilled {p : String × InputValue} :
    x ∈ (filledInput fs image p).2.2 ↔ x ∈ p.2.textNames ∧ (lookupIn fs x).isNone := by
  obtain ⟨name, v⟩ := p
  match v, image with
  | .literal (.str text), some img =>
    by_cases hd : (text == defaultImageName) = true
    · have ht : text = defaultImageName := by simpa using hd
      subst ht
      simp [filledInput, InputValue.textNames, placeholderNames_defaultImageName]
    · simp only [filledInput, if_neg hd, mem_textFill_unfilled, InputValue.textNames]
  | .literal (.str text), none => simp [filledInput, mem_textFill_unfilled, InputValue.textNames]
  | .literal .null, _ | .literal (.bool _), _ | .literal (.int _), _ | .literal (.float _), _
  | .literal (.arr _), _ | .literal (.obj _), _ | .connection _ _, _ | .unconnected _, _ =>
    simp [filledInput, InputValue.textNames]

/-- The placeholders left in a filled text are among the ones it left open,
when every opening brace of the text belongs to a placeholder and no value
found has one. -/
theorem textNames_textFill {text : String} (htext : BracesInSlots text)
    (hvals : ∀ n v, lookupIn fs n = some v → '{' ∉ v.display.toList) :
    ∀ y ∈ (InputValue.literal (textFill fs text).value).textNames, y ∈ (textFill fs text).unfilled := by
  intro y hy
  unfold textFill at hy ⊢
  cases hw : wholePlaceholder? text with
  | some n =>
    rw [hw] at hy
    dsimp only at hy ⊢
    cases hv : lookupIn fs n with
    | none =>
      -- the text stays the one written placeholder, left open
      rw [hv] at hy
      have hnames : placeholderNames text = [n] := by
        rw [placeholderNames_eq, (eq_slotText_of_wholePlaceholder? hw).1]
        rfl
      simpa [InputValue.textNames, hnames] using hy
    | some v =>
      rw [hv] at hy
      rw [textNames_literal_of_brace_free (hvals n v hv)] at hy
      exact absurd hy List.not_mem_nil
  | none =>
    rw [hw] at hy
    dsimp only at hy ⊢
    rw [InputValue.textNames, placeholderNames_renderIn htext hvals] at hy
    exact hy

/-- **What stays in a filled input is left open**, when the text's opening
braces all belong to placeholders and neither the values found nor the image
have one. -/
theorem textNames_filledInput {p : String × InputValue}
    (htext : ∀ text, p.2 = .literal (.str text) → BracesInSlots text)
    (hvals : ∀ n v, lookupIn fs n = some v → '{' ∉ v.display.toList)
    (himage : ∀ img, image = some img → '{' ∉ img.display.toList) :
    ∀ y ∈ (filledInput fs image p).1.2.textNames, y ∈ (filledInput fs image p).2.2 := by
  obtain ⟨name, v⟩ := p
  match v, image with
  | .literal (.str text), some img =>
    by_cases hd : (text == defaultImageName) = true
    · simp only [filledInput, if_pos hd]
      rw [textNames_literal_of_brace_free (himage img rfl)]
      exact fun y hy => absurd hy List.not_mem_nil
    · simp only [filledInput, if_neg hd]
      exact textNames_textFill (htext text rfl) hvals
  | .literal (.str text), none =>
    simp only [filledInput]
    exact textNames_textFill (htext text rfl) hvals
  | .literal .null, _ | .literal (.bool _), _ | .literal (.int _), _ | .literal (.float _), _
  | .literal (.arr _), _ | .literal (.obj _), _ | .connection _ _, _ | .unconnected _, _ =>
    simp [filledInput, InputValue.textNames]

end Template

namespace Graph

open Template

variable {g : Graph} {fs : Fields} {x : String}

theorem placeholders_eq (g : Graph) :
    g.placeholders = sortedNames (g.nodes.flatMap fun n => n.inputs.flatMap fun p => p.2.textNames) :=
  rfl

theorem mem_placeholders_iff : x ∈ g.placeholders ↔ ∃ n ∈ g.nodes, ∃ p ∈ n.inputs, x ∈ p.2.textNames := by
  simp [placeholders_eq]

/-- Some input of the graph holds exactly this text. -/
theorem hasLiteralText_iff {t : String} :
    g.hasLiteralText t = true ↔ ∃ n ∈ g.nodes, ∃ p ∈ n.inputs, p.2 = .literal (.str t) := by
  unfold hasLiteralText
  simp only [List.any_eq_true]
  refine exists_congr fun n => and_congr_right fun _ => exists_congr fun p => and_congr_right fun _ => ?_
  obtain ⟨name, v⟩ := p
  rcases v with (_ | _ | _ | _ | s | _ | _) | _ | _ <;> simp

theorem mem_fillFrom_filled : x ∈ (g.fillFrom fs).filled ↔
    ∃ n ∈ g.nodes, ∃ p ∈ n.inputs, x ∈ (filledInput fs (lookupIn fs "image_filename") p).2.1 := by
  simp [fillFrom, filledNode]

theorem mem_fillFrom_unfilled : x ∈ (g.fillFrom fs).unfilled ↔
    ∃ n ∈ g.nodes, ∃ p ∈ n.inputs, x ∈ (filledInput fs (lookupIn fs "image_filename") p).2.2 := by
  simp [fillFrom, filledNode]

/-- A placeholder filled is supplied by the values; one left open is not. -/
theorem fillFrom_supplied :
    (∀ x ∈ (g.fillFrom fs).filled, (lookupIn fs x).isSome) ∧
      ∀ x ∈ (g.fillFrom fs).unfilled, (lookupIn fs x).isNone := by
  refine ⟨fun x hx => ?_, fun x hx => ?_⟩
  · obtain ⟨n, -, p, -, hp⟩ := mem_fillFrom_filled.1 hx
    rcases mem_filledInput_filled.1 hp with ⟨-, hs⟩ | ⟨rfl, himg, -⟩
    · exact hs
    · exact himg
  · obtain ⟨n, -, p, -, hp⟩ := mem_fillFrom_unfilled.1 hx
    exact (mem_filledInput_unfilled.1 hp).2

/-- No placeholder is both filled and left open. -/
theorem fillFrom_disjoint : ∀ x ∈ (g.fillFrom fs).filled, x ∉ (g.fillFrom fs).unfilled := by
  intro x hf hu
  have hs := fillFrom_supplied.1 x hf
  have hn := fillFrom_supplied.2 x hu
  simp [Option.isNone_iff_eq_none.1 hn] at hs

/-- The placeholders filled and left open are the graph's, and the image
placeholder when an image is supplied and some literal holds the old fixed
file name. -/
theorem fillFrom_names (x : String) :
    x ∈ (g.fillFrom fs).filled ∨ x ∈ (g.fillFrom fs).unfilled ↔
      x ∈ g.placeholders ∨
        (x = "image_filename" ∧ Supplies (fs.map (·.1)) "image_filename" ∧
          g.hasLiteralText defaultImageName = true) := by
  rw [mem_fillFrom_filled, mem_fillFrom_unfilled, mem_placeholders_iff, hasLiteralText_iff,
    ← lookupIn_isSome_iff]
  constructor
  · rintro (⟨n, hn, p, hp, hx⟩ | ⟨n, hn, p, hp, hx⟩)
    · rcases mem_filledInput_filled.1 hx with ⟨hx, -⟩ | ⟨rfl, himg, hlit⟩
      · exact .inl ⟨n, hn, p, hp, hx⟩
      · exact .inr ⟨rfl, himg, n, hn, p, hp, hlit⟩
    · exact .inl ⟨n, hn, p, hp, (mem_filledInput_unfilled.1 hx).1⟩
  · rintro (⟨n, hn, p, hp, hx⟩ | ⟨rfl, himg, n, hn, p, hp, hlit⟩)
    · -- a placeholder of the graph is filled or left open, as the values supply it
      cases hv : lookupIn fs x with
      | none => exact .inr ⟨n, hn, p, hp, mem_filledInput_unfilled.2 ⟨hx, by simp [hv]⟩⟩
      | some v => exact .inl ⟨n, hn, p, hp, mem_filledInput_filled.2 (.inl ⟨hx, by simp [hv]⟩)⟩
    · exact .inl ⟨n, hn, p, hp, mem_filledInput_filled.2 (.inr ⟨rfl, himg, hlit⟩)⟩

/-- The placeholders of a filled graph were left open, when every opening
brace of its texts belongs to a placeholder and no value's text has a brace. -/
theorem fillFrom_leftover (hvals : ∀ kv ∈ fs, '{' ∉ kv.2.display.toList)
    (htext : ∀ n ∈ g.nodes, ∀ p ∈ n.inputs, ∀ text, p.2 = .literal (.str text) → BracesInSlots text) :
    ∀ x ∈ (g.fillFrom fs).graph.placeholders, x ∈ (g.fillFrom fs).unfilled := by
  have hfound : ∀ n v, lookupIn fs n = some v → '{' ∉ v.display.toList := by
    intro n v hv
    obtain ⟨kv, hkv, rfl⟩ := mem_of_lookupIn hv
    exact hvals kv hkv
  intro x hx
  obtain ⟨n', hn', q, hq, hxq⟩ := mem_placeholders_iff.1 hx
  obtain ⟨n, hn, rfl⟩ := List.mem_map.1 hn'
  obtain ⟨p, hp, rfl⟩ := List.mem_map.1 hq
  exact mem_fillFrom_unfilled.2 ⟨n, hn, p, hp,
    textNames_filledInput (htext n hn p hp) hfound (fun img himg => hfound _ _ himg) x hxq⟩

/-- **Filling keeps exact books.** Filling a graph from an object of values
succeeds when every value can be written out, that is holds no integer of more
than `Decimal.maxIntegerDigits` digits. No placeholder is both filled and left open; together they are the
graph's placeholders, and the image placeholder when the values supply an
image and some literal holds the old fixed file name. There is one warning per
open placeholder, and the open ones ascend strictly in code point order. When
no value's text has a brace and every opening brace of the graph's texts
belongs to one of their placeholders, every placeholder left in the filled
graph is one reported open. -/
theorem fill_bookkeeping (g : Graph) (vs : Fields) (hvs : ∀ kv ∈ vs, Issue.writable kv.2 = true) :
    ∃ r, g.fill (.obj vs) = .ok r ∧
      (∀ x ∈ r.filled, x ∉ r.unfilled) ∧
      (∀ x, x ∈ r.filled ∨ x ∈ r.unfilled ↔
        x ∈ g.placeholders ∨
          (x = "image_filename" ∧ Supplies (vs.map (·.1)) "image_filename" ∧
            g.hasLiteralText defaultImageName = true)) ∧
      r.warnings = r.unfilled.map (fun name => "No value supplied for placeholder " ++ slotText name) ∧
      r.unfilled.Pairwise (fun a b => Text.codeLE a b = true ∧ a ≠ b) ∧
      ((∀ kv ∈ vs, '{' ∉ kv.2.display.toList ∧ '}' ∉ kv.2.display.toList) →
        (∀ n ∈ g.nodes, ∀ p ∈ n.inputs, ∀ text, p.2 = .literal (.str text) → BracesInSlots text) →
        ∀ x ∈ r.graph.placeholders, x ∈ r.unfilled) :=
  ⟨g.fillFrom vs, fill_obj g vs hvs, fillFrom_disjoint, fillFrom_names, rfl, sortedNames_ascending _,
    fun hvals htext => fillFrom_leftover (fun kv hkv => (hvals kv hkv).1) htext⟩

/-- A prompt encoder whose two texts are one placeholder each. -/
def promptPair : Graph :=
  { nodes :=
      [{ id := "6", classType := "CLIPTextEncode",
         inputs := [("text", .literal (.str (slotText "subject"))),
           ("negative", .literal (.str (slotText "time")))] }] }

/-- Filling the subject of a prompt pair leaves the time open and reported. -/
theorem fill_bookkeeping_prompt_pair :
    (∀ kv ∈ [("subject", Value.str "a fox")], Issue.writable kv.2 = true) ∧
    (∀ kv ∈ [("subject", Value.str "a fox")], '{' ∉ kv.2.display.toList ∧ '}' ∉ kv.2.display.toList) ∧
      (∀ n ∈ promptPair.nodes, ∀ p ∈ n.inputs, ∀ text, p.2 = .literal (.str text) → BracesInSlots text) ∧
      ∃ r, promptPair.fill (.obj [("subject", .str "a fox")]) = .ok r ∧
        ∀ x ∈ r.graph.placeholders, x ∈ r.unfilled := by
  have hvals : ∀ kv ∈ [("subject", Value.str "a fox")],
      '{' ∉ kv.2.display.toList ∧ '}' ∉ kv.2.display.toList := by
    simp [Value.display]
  have htext : ∀ n ∈ promptPair.nodes, ∀ p ∈ n.inputs, ∀ text, p.2 = .literal (.str text) →
      BracesInSlots text := by
    intro n hn p hp text hv t ht
    simp only [promptPair, List.mem_singleton] at hn
    subst hn
    simp only [List.mem_cons, List.not_mem_nil, or_false] at hp
    -- each text is one written placeholder, with no plain piece
    rcases hp with rfl | rfl <;> cases hv <;> rw [pieces_slotText (by decide)] at ht <;> simp at ht
  have hw : ∀ kv ∈ [("subject", Value.str "a fox")], Issue.writable kv.2 = true := by decide
  obtain ⟨r, hr, -, -, -, -, hleft⟩ := fill_bookkeeping promptPair [("subject", .str "a fox")] hw
  exact ⟨hw, hvals, htext, r, hr, hleft hvals htext⟩

/-- A prompt whose placeholder stands inside two more pairs of braces. -/
def bracedPrompt : Graph :=
  { nodes :=
      [{ id := "1", classType := "CLIPTextEncode",
         inputs := [("text", .literal (.str "\x7b\x7b\x7b\x7ba\x7d\x7d\x7d\x7d"))] }] }

/-- **Filling can write a placeholder it does not report.** With no brace in
any value, the braces around `{{a}}` close around its value `b`: the filled
graph holds `{{b}}`, while `b` is neither filled nor left open. -/
theorem fill_forms_placeholder :
    (∀ kv ∈ [("a", Value.str "b")], '{' ∉ kv.2.display.toList ∧ '}' ∉ kv.2.display.toList) ∧
      ∃ r, bracedPrompt.fill (.obj [("a", .str "b")]) = .ok r ∧
        "b" ∈ r.graph.placeholders ∧ "b" ∉ r.unfilled := by
  refine ⟨by simp [Value.display], _, fill_obj _ _ (by decide), ?_, ?_⟩
  · rw [mem_placeholders_iff]
    exact ⟨_, List.mem_singleton_self _, _, List.mem_singleton_self _, by decide⟩
  · rw [mem_fillFrom_unfilled]
    rintro ⟨n, hn, p, hp, hb⟩
    simp only [bracedPrompt, List.mem_singleton] at hn
    subst hn
    simp only [List.mem_singleton] at hp
    subst hp
    revert hb
    decide

end Graph

end NodeFlow
