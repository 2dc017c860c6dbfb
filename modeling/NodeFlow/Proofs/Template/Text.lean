import NodeFlow.Proofs.Mapping.Template
import NodeFlow.Template.Fill
import NodeFlow.Proofs.Outcome
/-!
# Filling one text

Cutting a text into pieces loses nothing: the pieces rendered and joined give
the text back (`pieces_render`). So a text none of whose placeholders has a
value comes out of filling as it went in, with every placeholder reported as
open (`fillText_unsupplied`), and a text that is one written placeholder with
a value takes the value itself (`fillText_slotText`).

Values given as an object supply a placeholder when a member is named by it or
by the field key it lands on (`Supplies`); that is exactly when looking the
placeholder up finds something (`lookup_of_get?`, `lookup_eq_none`).
-/

namespace NodeFlow

open Json

namespace Template

/-! ## The pieces of a text -/

/-- The name of a placeholder piece. -/
def Piece.slotName? : Piece → Option String
  | .slot name => some name
  | .plain _ => none

theorem placeholderNames_eq (text : String) : placeholderNames text = (pieces text).filterMap Piece.slotName? := by
  rfl

/-- A placeholder read at the head of some characters is written there. -/
theorem eq_of_slotAt {cs rest : List Char} {name : String} (h : slotAt cs = some (name, rest)) :
    cs = (slotText name).toList ++ rest := by
  unfold slotAt at h
  split at h
  · rename_i r
    -- the name runs up to the first character that is none, and two closing braces follow
    dsimp only at h
    split at h
    · rename_i hrest
      obtain ⟨rfl, rfl⟩ := Prod.mk.inj (Option.some.inj h)
      have hr : r = r.takeWhile isNameChar ++ r.dropWhile isNameChar := List.takeWhile_append_dropWhile.symm
      rw [slotText_toList, String.toList_ofList]
      nth_rewrite 1 [hr]
      rw [hrest]
      simp
    · cases h
  · cases h

theorem length_lt_of_slotAt {cs rest : List Char} {name : String} (h : slotAt cs = some (name, rest)) :
    rest.length < cs.length := by
  rw [eq_of_slotAt h, slotText_toList]
  simp only [List.cons_append, List.append_assoc, List.length_cons, List.length_append]
  omega

theorem join_withPlain (run : List Char) (ps : List Piece) :
    (String.join ((withPlain run ps).map Piece.render)).toList = run ++ (String.join (ps.map Piece.render)).toList := by
  unfold withPlain
  split
  · rename_i hrun
    rw [List.isEmpty_iff.1 hrun, List.nil_append]
  · rw [List.map_cons, String.join_cons, String.toList_append, Piece.render, String.toList_ofList]

/-- Pieces cut with enough fuel give back the plain run read so far and the
characters still to read. -/
theorem join_piecesOfChars :
    ∀ (fuel : Nat) (run cs : List Char), cs.length < fuel →
      (String.join ((piecesOfChars fuel run cs).map Piece.render)).toList = run ++ cs
  | 0, _, _, h => absurd h (Nat.not_lt_zero _)
  | _ + 1, run, [], _ => by
    rw [piecesOfChars, join_withPlain]
    rfl
  | fuel + 1, run, c :: cs, h => by
    rw [piecesOfChars]
    split
    · -- a placeholder starts here: the run so far, the placeholder, then the rest
      rename_i name rest hslot
      have hlen := length_lt_of_slotAt hslot
      rw [join_withPlain, List.map_cons, String.join_cons, String.toList_append,
        join_piecesOfChars fuel [] rest (by simp at h hlen ⊢; omega), eq_of_slotAt hslot]
      simp [Piece.render]
    · -- a plain character joins the run
      rw [join_piecesOfChars fuel (run ++ [c]) cs (by simp at h; omega)]
      simp

/-- **The pieces of a text, rendered and joined, are the text.** -/
theorem pieces_render (text : String) : String.join ((pieces text).map Piece.render) = text := by
  apply String.ext
  rw [pieces, join_piecesOfChars _ _ _ (by simp [String.length_toList]), List.nil_append]

/-- A text that is one whole placeholder is that placeholder written. -/
theorem eq_slotText_of_wholePlaceholder? {text name : String} (h : wholePlaceholder? text = some name) :
    pieces text = [.slot name] ∧ text = slotText name := by
  have hp : pieces text = [.slot name] := by
    unfold wholePlaceholder? at h
    split at h
    · cases h
      assumption
    · cases h
  refine ⟨hp, ?_⟩
  have hr := pieces_render text
  rw [hp] at hr
  simpa [Piece.render] using hr.symm

/-! ## Looking a placeholder up -/

/-- Values with members named `names` supply the placeholder `name`: a member
is named by it, or by the field key it lands on. -/
def Supplies (names : List String) (name : String) : Prop :=
  name ∈ names ∨ ∃ key, placeholderKeys.lookup name = some key ∧ key ∈ names

variable {fs : Fields} {name : String}

theorem holdsName_obj (fs : Fields) (name : String) : holdsName (.obj fs) name = .ok (fs.any (·.1 == name)) := rfl

theorem any_name_iff : fs.any (·.1 == name) = true ↔ name ∈ fs.map (·.1) := by
  simp

/-- A placeholder named by a member takes the member's value. -/
theorem lookup_of_get? {v : Value} (h : Fields.get? fs name = some v) : lookup (.obj fs) name = .ok (some v) := by
  have hany : fs.any (·.1 == name) = true := by
    obtain ⟨p, hp, rfl⟩ := Option.map_eq_some_iff.1 h
    exact List.any_eq_true.2 ⟨p, List.mem_of_find?_eq_some hp, by simpa using List.find?_some hp⟩
  have hmember : memberNamed (.obj fs) name = .ok v := by
    show Except.ok ((Fields.get? fs name).getD .null) = _
    rw [h, Option.getD_some]
  unfold lookup
  rw [holdsName_obj, MappingState.ok_bind, hany, if_pos rfl, hmember]
  rfl

/-- **A placeholder the values do not supply is looked up as absent.** -/
theorem lookup_eq_none (h : ¬ Supplies (fs.map (·.1)) name) : lookup (.obj fs) name = .ok none := by
  have hname : fs.any (·.1 == name) = false := by
    rw [Bool.eq_false_iff, ne_eq, any_name_iff]
    exact fun hm => h (.inl hm)
  unfold lookup
  rw [holdsName_obj, MappingState.ok_bind, hname, if_neg Bool.false_ne_true]
  split
  · rename_i key hkey
    have hkey' : fs.any (·.1 == key) = false := by
      rw [Bool.eq_false_iff, ne_eq, any_name_iff]
      exact fun hm => h (.inr ⟨key, hkey, hm⟩)
    rw [holdsName_obj, MappingState.ok_bind, hkey']
    rfl
  · rfl

/-- Values given as an object are looked up without failure. -/
theorem lookup_obj_ok (fs : Fields) (name : String) : ∃ r, lookup (.obj fs) name = .ok r := by
  unfold lookup
  rw [holdsName_obj, MappingState.ok_bind]
  split
  · exact ⟨_, rfl⟩
  · split
    · rw [holdsName_obj, MappingState.ok_bind]
      split
      · exact ⟨_, rfl⟩
      · exact ⟨_, rfl⟩
    · exact ⟨_, rfl⟩

/-- A placeholder looked up as present is supplied. -/
theorem supplies_of_lookup {v : Value} (h : lookup (.obj fs) name = .ok (some v)) : Supplies (fs.map (·.1)) name := by
  by_contra hs
  rw [lookup_eq_none hs] at h
  cases h

/-! ## Filling a text -/

variable {values : Value}

/-- Filling pieces none of which has a value renders them in turn and reports
every placeholder as open. -/
theorem foldlM_pieces_unsupplied {F : String × List String × List String → Piece → Outcome (String × List String × List String)}
    (hplain : ∀ acc t, F acc (.plain t) = .ok (acc.1 ++ t, acc.2))
    (hslot : ∀ acc name, lookup values name = .ok none → F acc (.slot name) = .ok (acc.1 ++ slotText name, acc.2.1, acc.2.2 ++ [name])) :
    ∀ (ps : List Piece) (acc : String × List String × List String),
      (∀ name ∈ ps.filterMap Piece.slotName?, lookup values name = .ok none) →
      ps.foldlM F acc = .ok (acc.1 ++ String.join (ps.map Piece.render), acc.2.1, acc.2.2 ++ ps.filterMap Piece.slotName?)
  | [], acc, _ => by simp; rfl
  | .plain t :: ps, acc, h => by
    have hnames : (Piece.plain t :: ps).filterMap Piece.slotName? = ps.filterMap Piece.slotName? := rfl
    rw [hnames] at h ⊢
    rw [List.foldlM_cons, hplain, MappingState.ok_bind, foldlM_pieces_unsupplied hplain hslot ps _ h]
    simp [Piece.render, String.append_assoc]
  | .slot name :: ps, acc, h => by
    have hnames : (Piece.slot name :: ps).filterMap Piece.slotName? = name :: ps.filterMap Piece.slotName? := rfl
    rw [hnames] at h ⊢
    rw [List.foldlM_cons, hslot acc name (h name List.mem_cons_self), MappingState.ok_bind,
      foldlM_pieces_unsupplied hplain hslot ps _ fun n hn => h n (List.mem_cons_of_mem _ hn)]
    simp [Piece.render, String.append_assoc]

/-- **A text none of whose placeholders has a value is kept**, and each of its
placeholders is reported open. -/
theorem fillText_unsupplied {text : String} (h : ∀ name ∈ placeholderNames text, lookup values name = .ok none) :
    fillText values text = .ok ⟨.str text, [], placeholderNames text⟩ := by
  unfold fillText
  cases hw : wholePlaceholder? text with
  | some name =>
    obtain ⟨hp, -⟩ := eq_slotText_of_wholePlaceholder? hw
    have hnames : placeholderNames text = [name] := by rw [placeholderNames_eq, hp]; rfl
    rw [hnames] at h ⊢
    dsimp only
    rw [h name List.mem_cons_self, MappingState.ok_bind]
    rfl
  | none =>
    rw [placeholderNames_eq] at h ⊢
    dsimp only
    rw [foldlM_pieces_unsupplied (fun _ _ => rfl) (fun acc name hn => by simp only [hn]; rfl) _ _ h,
      MappingState.ok_bind]
    simp only [String.empty_append, List.nil_append, pieces_render]
    rfl

/-- **A written placeholder with a value takes the value itself**, so a number
stays a number. -/
theorem fillText_slotText {v : Value} (hn : isName name = true) (h : lookup values name = .ok (some v)) :
    fillText values (slotText name) = .ok ⟨v, [name], []⟩ := by
  unfold fillText
  rw [wholePlaceholder?_slotText hn]
  dsimp only
  rw [h, MappingState.ok_bind]
  rfl

end Template

end NodeFlow
