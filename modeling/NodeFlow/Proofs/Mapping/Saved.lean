import NodeFlow.Proofs.Json.Settled
import NodeFlow.Proofs.Mapping.Session
import NodeFlow.Proofs.Layout.Reimport
/-!
# The saved text of a mapping state

`MappingState.toText` writes a state as inline JSON with every character
outside printable ASCII escaped (a state holding an integer of too many digits
has no saved text), and `MappingState.ofText` reads it back. The
reader takes every selected position as the integer it stands for
(`FieldMapping.ofValue_toValue`), so a position given as a flag or a double
comes back as an integer: a field selected by the flag `false` reads back
selecting `0`, and the saved text changes on the way (`ofText_flag_selection`).
Every state read from text selects at integers (`ofText_indexed`).

Where the positions are integers and the saved value is settled (integers the
writer accepts, NaNs as the reader makes them, texts the reader gives back as
they are, no member name twice), the state has saved text, reading it gives the
state back, and saving it again gives the same text (`ofText_toText_roundTrip`). The saved
form adds only names in ASCII, so it is settled exactly when the parts of the
state are (`MappingState.settled_toValue`).
-/

namespace NodeFlow

open Json

/-- Whether a position is given as an integer. -/
def Position.isIndex : Position → Bool
  | .index _ => true
  | _ => false

@[simp] theorem Category.ofValue_code (c : Category) : Category.ofValue (.str c.code) = .ok c := by
  cases c <;> rfl

namespace MappingState

/-- Reading back a list of saved items gives the list, when each item reads
back as itself. -/
theorem mapM_map_of_ok {α β : Type} {f : β → Outcome α} {g : α → β} :
    ∀ {l : List α}, (∀ a ∈ l, f (g a) = .ok a) → (l.map g).mapM f = .ok l
  | [], _ => rfl
  | a :: l, h => by
    have ht := mapM_map_of_ok fun b hb => h b (List.mem_cons_of_mem a hb)
    rw [List.map_cons, List.mapM_cons, h a List.mem_cons_self, ok_bind, ht, ok_bind]
    rfl

end MappingState

namespace Candidate

@[simp] theorem ofValue_toValue (c : Candidate) : ofValue c.toValue = .ok c := rfl

/-- A candidate's saved form is settled when its texts and current value are. -/
theorem settled_toValue (c : Candidate) :
    c.toValue.settled = (Text.settled c.nodeId && Text.settled c.nodeTitle && Text.settled c.classType &&
      Text.settled c.inputKey && c.currentValue.settled) := by
  rw [toValue, Value.settled_obj_ascii (by simp only [List.map_cons, List.map_nil]; decide) (by simp)]
  simp only [List.all_cons, List.all_nil, Value.settled, Bool.and_true, Bool.and_assoc]

end Candidate

namespace FieldMapping

/-- **A field mapping reads back from its saved form with its position taken
as an integer**, and fails where the position has none (a NaN or an infinite
double). -/
theorem ofValue_toValue (m : FieldMapping) :
    ofValue m.toValue = (m.selected.toValue.toInteger).map fun n => { m with selected := .index n } := by
  have hc := MappingState.mapM_map_of_ok fun c (_ : c ∈ m.candidates) => c.ofValue_toValue
  simp [ofValue, toValue, Value.member, Value.memberOr, Fields.get?, Value.iterate, hc, Value.fields?,
    Value.truthy]
  rfl

theorem ofValue_toValue_of_isIndex {m : FieldMapping} (h : m.selected.isIndex = true) :
    ofValue m.toValue = .ok m := by
  obtain ⟨field, candidates, selected, required⟩ := m
  cases selected with
  | index n => rw [ofValue_toValue]; rfl
  | flag _ | double _ => cases h

/-- A field mapping read back from a value selects at an integer position. -/
theorem ofValue_isIndex {v : Value} {m : FieldMapping} (h : ofValue v = .ok m) : m.selected.isIndex = true := by
  unfold ofValue at h
  -- every part is read in turn, and the position is the integer of the last read
  obtain ⟨_, -, h⟩ := exists_of_bind_eq_ok h
  obtain ⟨_, -, h⟩ := exists_of_bind_eq_ok h
  obtain ⟨_, -, h⟩ := exists_of_bind_eq_ok h
  obtain ⟨_, -, h⟩ := exists_of_bind_eq_ok h
  obtain ⟨_, -, h⟩ := exists_of_bind_eq_ok h
  obtain ⟨_, -, h⟩ := exists_of_bind_eq_ok h
  obtain ⟨_, -, h⟩ := exists_of_bind_eq_ok h
  cases h
  rfl

/-- A field mapping's saved form is settled when its field, its position and
its candidates are. -/
theorem settled_toValue (m : FieldMapping) :
    m.toValue.settled = (m.field.key.settled && m.field.displayName.settled && m.field.description.settled &&
      m.selected.toValue.settled && m.candidates.all (·.toValue.settled)) := by
  rw [toValue, Value.settled_obj_ascii (by simp only [List.map_cons, List.map_nil]; decide) (by simp)]
  simp only [List.all_cons, List.all_nil, Value.settled, Value.settledItems_eq_all, List.all_map, Bool.and_true,
    Bool.true_and, Bool.and_assoc]
  rfl

end FieldMapping

namespace MappingState

/-- A state's saved form is settled when its field mappings' are: the category
is written by its code, in ASCII. -/
theorem settled_toValue (s : MappingState) : s.toValue.settled = s.fields.all (·.toValue.settled) := by
  have hcode : Text.settled s.category.code = true := by
    cases s.category <;> exact Text.settled_ascii (by simp [Category.code])
  rw [toValue, Value.settled_obj_ascii (by simp only [List.map_cons, List.map_nil]; decide) (by simp)]
  simp only [List.all_cons, List.all_nil, Value.settled, hcode, Value.settledItems_eq_all, List.all_map,
    Bool.and_true, Bool.true_and]
  rfl

/-- A state whose positions are integers reads back from its saved form as
itself. -/
theorem ofValue_toValue {s : MappingState} (h : ∀ m ∈ s.fields, m.selected.isIndex = true) :
    ofValue s.toValue = .ok s := by
  have hf := mapM_map_of_ok fun m hm => FieldMapping.ofValue_toValue_of_isIndex (h m hm)
  simp [ofValue, toValue, Value.member, Fields.get?, Value.iterate, hf]

/-- A state read back from a value selects at integer positions only. -/
theorem ofValue_indexed {v : Value} {s : MappingState} (h : ofValue v = .ok s) :
    ∀ m ∈ s.fields, m.selected.isIndex = true := by
  unfold ofValue at h
  obtain ⟨_, -, h⟩ := exists_of_bind_eq_ok h
  obtain ⟨_, -, h⟩ := exists_of_bind_eq_ok h
  obtain ⟨_, hfields, h⟩ := exists_of_bind_eq_ok h
  obtain ⟨_, -, h⟩ := exists_of_bind_eq_ok h
  obtain ⟨_, -, h⟩ := exists_of_bind_eq_ok h
  cases h
  exact mapM_forall_ok_of_mem (fun _ _ _ => FieldMapping.ofValue_isIndex) hfields

/-- Text reads as a state exactly when it decodes to a value that reads as the
state. -/
theorem ofText_eq_ok {text : String} {s : MappingState} :
    ofText text = .ok s ↔ ∃ v, Value.decode text = .ok v ∧ ofValue v = .ok s := by
  unfold ofText
  cases hd : Value.decode text with
  | error e => simp
  | ok v =>
    simp only [Except.ok.injEq, exists_eq_left']
    cases hv : ofValue v with
    | ok s' => simp
    | error f =>
      -- a failed read is refused, whichever failure it is
      simp only
      split <;> simp

/-- A state read back from text selects at integer positions only. -/
theorem ofText_indexed {text : String} {s : MappingState} (h : ofText text = .ok s) :
    ∀ m ∈ s.fields, m.selected.isIndex = true := by
  obtain ⟨v, -, hv⟩ := ofText_eq_ok.1 h
  exact ofValue_indexed hv

/-- The saved text of a state whose integers can all be written out is its
saved value as inline ASCII JSON. -/
theorem toText_of_writable {s : MappingState} (h : Issue.writable s.toValue = true) :
    s.toText = .ok (s.toValue.render Layout.inlineAscii) :=
  Value.textBy_of_writable h

/-- **The saved text of a mapping state reads back as the state.** Where the
positions are integers and the saved value is settled, the state has saved
text, reading it gives the state, and saving what was read gives the same text.
Every state read from text selects at integers. -/
theorem ofText_toText_roundTrip {s : MappingState} (hidx : ∀ m ∈ s.fields, m.selected.isIndex = true)
    (hs : s.toValue.settled = true) :
    (s.toText >>= ofText) = .ok s ∧ (∃ text, s.toText = .ok text ∧ (ofText text >>= toText) = .ok text) ∧
      ∀ text s', ofText text = .ok s' → ∀ m ∈ s'.fields, m.selected.isIndex = true := by
  have htext := toText_of_writable (Value.writable_of_settled _ hs)
  have hread : ofText (s.toValue.render Layout.inlineAscii) = .ok s :=
    ofText_eq_ok.2 ⟨s.toValue, decode_render_settled hs, ofValue_toValue hidx⟩
  refine ⟨?_, ⟨_, htext, ?_⟩, fun _ _ h => ofText_indexed h⟩
  · rw [htext]
    exact hread
  · rw [hread]
    exact htext

/-- The text input of an untitled prompt encoder, node `1`. -/
def encoderText : Candidate := ⟨"1", "CLIPTextEncode", "CLIPTextEncode", "text", .str "a cat"⟩

/-- A text-to-image state with one field, the positive prompt, found at the
text of node `1` and selected at a position. -/
def onePrompt (p : Position) : MappingState :=
  ⟨.textToImage, [⟨FieldInfo.ofKey "positive_text", [encoderText], p, true⟩]⟩

/-- Only the position can unsettle the saved form of `onePrompt`: its texts
are all in ASCII. -/
theorem onePrompt_settled (p : Position) : (onePrompt p).toValue.settled = p.toValue.settled := by
  have hname : Template.displayName "positive_text" = "Positive Prompt" := by
    simp [Template.displayName, Template.knownFields]
  have hdesc : Template.description "positive_text" = "The text prompt for generation" := by
    simp [Template.description, Template.knownFields]
  have hascii : ∀ s ∈ ["positive_text", "Positive Prompt", "The text prompt for generation", "1",
      "CLIPTextEncode", "text", "a cat"], Text.settled s = true := by
    intro s hs
    simp only [List.mem_cons, List.not_mem_nil, or_false] at hs
    rcases hs with rfl | rfl | rfl | rfl | rfl | rfl | rfl <;> exact Text.settled_ascii (by simp)
  rw [settled_toValue]
  simp only [onePrompt, encoderText, List.all_cons, List.all_nil, FieldMapping.settled_toValue,
    Candidate.settled_toValue, FieldInfo.ofKey, Value.settled, Bool.and_true, hname, hdesc]
  simp (disch := simp) only [hascii, Bool.true_and, Bool.and_true]

theorem ofText_toText_onePrompt :
    (∀ m ∈ (onePrompt (.index 0)).fields, m.selected.isIndex = true) ∧
      (onePrompt (.index 0)).toValue.settled = true ∧
      ((onePrompt (.index 0)).toText >>= ofText) = .ok (onePrompt (.index 0)) ∧
      (∃ text, (onePrompt (.index 0)).toText = .ok text ∧ (ofText text >>= toText) = .ok text) ∧
      ∀ text s', ofText text = .ok s' → ∀ m ∈ s'.fields, m.selected.isIndex = true :=
  have hidx : ∀ m ∈ (onePrompt (.index 0)).fields, m.selected.isIndex = true := by
    simp [onePrompt, Position.isIndex]
  have hs : (onePrompt (.index 0)).toValue.settled = true := by
    rw [onePrompt_settled]
    decide
  ⟨hidx, hs, ofText_toText_roundTrip hidx hs⟩

/-- **A field selected by the flag `false` reads back selecting `0`.** The
state read from the saved text is not the state saved, and its saved text is
another. -/
theorem ofText_flag_selection :
    (onePrompt (.index 0)).select (.str "positive_text") (.bool false) = .ok (onePrompt (.flag false)) ∧
      ((onePrompt (.flag false)).toText >>= ofText) = .ok (onePrompt (.index 0)) ∧
      (onePrompt (.index 0)).toText ≠ (onePrompt (.flag false)).toText := by
  have hzero : (onePrompt (.index 0)).toValue.settled = true := by
    rw [onePrompt_settled]
    decide
  have hflag : (onePrompt (.flag false)).toValue.settled = true := by
    rw [onePrompt_settled]
    rfl
  -- the saved flag is read as the integer it stands for
  have hread : ofValue (onePrompt (.flag false)).toValue = .ok (onePrompt (.index 0)) := by
    simp [ofValue, toValue, onePrompt, Value.member, Fields.get?, Value.iterate, List.mapM_cons,
      FieldMapping.ofValue_toValue, Position.toValue, Value.toInteger]
    rfl
  have hzeroText := toText_of_writable (Value.writable_of_settled _ hzero)
  have hflagText := toText_of_writable (Value.writable_of_settled _ hflag)
  refine ⟨rfl, ?_, fun h => ?_⟩
  · rw [hflagText]
    exact ofText_eq_ok.2 ⟨_, decode_render_settled hflag, hread⟩
  -- equal texts would decode to equal values, but the positions are written as `0` and `false`
  rw [hzeroText, hflagText] at h
  have hv := congrArg Value.decode (Except.ok.inj h)
  rw [decode_render_settled hzero, decode_render_settled hflag] at hv
  simp [onePrompt, toValue, FieldMapping.toValue, Position.toValue] at hv

end MappingState

end NodeFlow
