import NodeFlow.Proofs.Mapping.Saved
import NodeFlow.Proofs.Mapping.Written
/-!
# Selections stay within the candidates

A field's position may be `-1` (nothing selected) or name one of its
candidates (`FieldMapping.inRange`). Three things make mapping states: an
analysis, which selects the first candidate or nothing; a selection, which
refuses a position outside `-1 ≤ i < candidates` and moves nothing else; and
reading back the text saved for a state, which keeps the candidates and reads
each position as the whole number it stands for. Each keeps every position
whole and within range (`analyze_inRange`, `select_inRange`,
`restore_inRange`), so every state made from an analysis by selections and
round trips through saved text has them (`Obtained.sound`), and for such a
field being mapped, needing a new selection and having candidates are tied
as the editor expects (`FieldMapping.flags_of_inRange`,
`obtained_selection_in_range`). No step is out of reach: selecting `-1` clears
the fields of a key (`select_clear`), and the saved text of a state at whole
positions reads back whenever the state can be saved (`toText_ofText_ok`).

Reading text that was not saved from such a state checks no position: a
saved state whose only field has one candidate and the position `3` reads back
as it is, neither mapped nor asking for a new selection
(`ofText_index_past_candidates`).
-/

namespace NodeFlow

open Json

namespace FieldMapping

/-- The position lies where a selection may: at least `-1` and below the number
of candidates, compared as the position is given. -/
def inRange (m : FieldMapping) : Bool := m.selected.atLeast (-1) && m.selected.below m.candidates.length

theorem inRange_of_wholeValue {m : FieldMapping} {i : Int} (h : m.selected.wholeValue? = some i) :
    m.inRange = decide (-1 ≤ i ∧ i < m.candidates.length) := by
  rw [inRange, Position.atLeast_of_wholeValue h, Position.below_of_wholeValue h, Bool.decide_and]

/-- **A selection keeps the field and lands within range**, whatever the
position is given as. -/
theorem select_inRange {m m' : FieldMapping} {index : Value} (h : m.select index = .ok m') :
    m'.candidates = m.candidates ∧ m'.inRange = true := by
  unfold select at h
  -- a number or a flag is checked against the candidates, any other index refused
  cases index with
  | int _ | bool _ | float _ =>
    simp only [pure_bind] at h
    split at h
    · rename_i hp
      cases h
      exact ⟨rfl, hp⟩
    · cases h
  | _ => cases h

/-- **For a whole position within range, the flags read as the editor
expects**: the field is mapped exactly when the position is at least `0`, it
asks for a new selection exactly when it has candidates and the position is
`-1`, and a field with candidates does one or the other. -/
theorem flags_of_inRange {m : FieldMapping} (hw : m.selected.whole = true) (hr : m.inRange = true) :
    ∃ i, m.selected.wholeValue? = some i ∧ -1 ≤ i ∧ i < m.candidates.length ∧
      m.isMapped = .ok (decide (0 ≤ i)) ∧ m.needsRemapping = (!m.candidates.isEmpty && decide (i = -1)) ∧
      (m.candidates ≠ [] → m.isMapped = .ok true ∨ m.needsRemapping = true) := by
  obtain ⟨i, hi⟩ := Option.isSome_iff_exists.1 hw
  have hb : -1 ≤ i ∧ i < m.candidates.length := by simpa [inRange_of_wholeValue hi] using hr
  have hmapped : m.isMapped = .ok (decide (0 ≤ i)) := by
    rw [MappingState.isMapped_eq hw]
    unfold chosen?
    rw [hi]
    dsimp only
    by_cases h0 : 0 ≤ i
    · have hlt : i.toNat < m.candidates.length := by omega
      simp [h0, hlt]
    · simp [h0]
  have hremap : m.needsRemapping = (!m.candidates.isEmpty && decide (i = -1)) := by
    unfold needsRemapping
    rw [Position.below_of_wholeValue hi]
    -- a position of at least `-1` is below `0` only at `-1`
    have hneg : decide (i < 0) = decide (i = -1) := by
      rw [Bool.eq_iff_iff, decide_eq_true_iff, decide_eq_true_iff]
      omega
    rw [hneg]
  refine ⟨i, hi, hb.1, hb.2, hmapped, hremap, fun hne => ?_⟩
  by_cases h0 : 0 ≤ i
  · exact .inl (by rw [hmapped, decide_eq_true h0])
  · have hi' : i = -1 := by omega
    exact .inr (by simp [hremap, hi', hne])

end FieldMapping

namespace MappingState

/-- A field whose position is a whole number within range. -/
def Sound (m : FieldMapping) : Prop := m.selected.whole = true ∧ m.inRange = true

variable {g : Graph} {c : Category} {schema : Schema}

/-- **An analysis selects within range**: the first candidate, or nothing. -/
theorem analyze_inRange : ∀ m ∈ (analyze g c schema).fields, Sound m := by
  intro m hm
  obtain ⟨-, -, -, -, -, hs⟩ := mem_analyze hm
  refine ⟨analyze_whole m hm, ?_⟩
  rw [FieldMapping.inRange_of_wholeValue (i := if m.candidates.isEmpty then -1 else 0) (by rw [hs]; rfl)]
  cases m.candidates <;> simp

/-- **A selection at a whole position keeps every field sound.** -/
theorem select_inRange {s s' : MappingState} {key index : Value} (hi : wholeIndex index = true)
    (hs : s.select key index = .ok s') (h : ∀ m ∈ s.fields, Sound m) : ∀ m ∈ s'.fields, Sound m := by
  obtain ⟨cat, fs⟩ := s
  unfold select at hs
  obtain ⟨fields, hf, hs⟩ := exists_of_bind_eq_ok hs
  cases hs
  refine mapM_forall_ok_of_mem (fun m hm m' hm' => ?_) hf
  -- a field of the key takes the new position, any other stays as it was
  split at hm'
  · exact ⟨(FieldMapping.select_eq hi hm').2, (FieldMapping.select_inRange hm').2⟩
  · cases hm'
    exact h m hm

/-! ## Reading back a saved state -/

/-- Names that reading back leaves as they are, written once each, are read
back in place, with their values read back. -/
theorem rereadBy_obj_of_fixed {text : String → String} {fs : Fields} (hkeys : ∀ kv ∈ fs, text kv.1 = kv.1)
    (hnd : (fs.map Prod.fst).Nodup) :
    (Value.obj fs).rereadBy text = .obj (fs.map fun kv => (kv.1, kv.2.rereadBy text)) := by
  have hmap : fs.map (fun kv => (text kv.1, kv.2.rereadBy text)) = fs.map (fun kv => (kv.1, kv.2.rereadBy text)) :=
    List.map_congr_left fun kv hkv => by rw [hkeys kv hkv]
  have hnd' : ((fs.map fun kv => (kv.1, kv.2.rereadBy text)).map Prod.fst).Nodup := by
    simpa [List.map_map, Function.comp_def] using hnd
  rw [Value.rereadBy, Value.rereadMembersBy_eq_map, hmap, Fields.ofPairs_of_nodup hnd']

theorem rejoined_ascii {k : String} (h : ∀ c ∈ k.toList, c.toNat < 0x80) : Text.rejoined k = k :=
  Text.rejoined_of_settled (Text.settled_ascii h)

/-- The saved form of a field mapping, read back from its ASCII text. -/
theorem FieldMapping.toValue_rereadBy (m : FieldMapping) :
    m.toValue.rereadBy Text.rejoined = .obj [("fieldKey", m.field.key.rereadBy Text.rejoined),
      ("displayName", m.field.displayName.rereadBy Text.rejoined),
      ("description", m.field.description.rereadBy Text.rejoined), ("required", .bool m.required),
      ("selectedCandidateIndex", m.selected.toValue.rereadBy Text.rejoined),
      ("candidates", .arr (m.candidates.map fun c => c.toValue.rereadBy Text.rejoined))] := by
  have hkeys : ∀ kv ∈ [("fieldKey", m.field.key), ("displayName", m.field.displayName),
      ("description", m.field.description), ("required", Value.bool m.required),
      ("selectedCandidateIndex", m.selected.toValue),
      ("candidates", Value.arr (m.candidates.map Candidate.toValue))], Text.rejoined kv.1 = kv.1 := by
    intro kv hkv
    simp only [List.mem_cons, List.not_mem_nil, or_false] at hkv
    rcases hkv with rfl | rfl | rfl | rfl | rfl | rfl <;> exact rejoined_ascii (by simp)
  rw [FieldMapping.toValue, rereadBy_obj_of_fixed hkeys (by simp only [List.map_cons, List.map_nil]; decide)]
  simp [Value.rereadBy, List.map_map, Function.comp_def]

/-- The saved form of a state, read back from its ASCII text. -/
theorem toValue_rereadBy (s : MappingState) :
    s.toValue.rereadBy Text.rejoined = .obj [("workflowType", .str (Text.rejoined s.category.code)),
      ("fieldMappings", .arr (s.fields.map fun m => m.toValue.rereadBy Text.rejoined))] := by
  have hkeys : ∀ kv ∈ [("workflowType", Value.str s.category.code),
      ("fieldMappings", Value.arr (s.fields.map FieldMapping.toValue))], Text.rejoined kv.1 = kv.1 := by
    intro kv hkv
    simp only [List.mem_cons, List.not_mem_nil, or_false] at hkv
    rcases hkv with rfl | rfl <;> exact rejoined_ascii (by simp)
  rw [toValue, rereadBy_obj_of_fixed hkeys (by simp only [List.map_cons, List.map_nil]; decide)]
  simp [Value.rereadBy, List.map_map, Function.comp_def]

/-- A field mapping read from an object of the saved shape has as many
candidates as the object lists, at the position its index stands for. -/
theorem FieldMapping.ofValue_saved {key name description required pos : Value} {cs : List Value}
    {m' : FieldMapping}
    (h : FieldMapping.ofValue (.obj [("fieldKey", key), ("displayName", name), ("description", description),
      ("required", required), ("selectedCandidateIndex", pos), ("candidates", .arr cs)]) = .ok m') :
    m'.candidates.length = cs.length ∧ ∃ n, pos.toInteger = .ok n ∧ m'.selected = .index n := by
  simp only [ExceptT.stM_eq, FieldMapping.ofValue, Value.member, Fields.get?, BEq.rfl, List.find?_cons_of_pos,
    Option.map_some, String.reduceBEq, Bool.false_eq_true, not_false_eq_true, List.find?_cons_of_neg, Value.iterate,
    Value.memberOr, Value.fields?, Option.getD_some, bind_pure_comp, except_ok_bind] at h
  -- the candidates are read item by item, then the index
  obtain ⟨cands, hcands, h⟩ := exists_of_bind_eq_ok h
  cases hn : pos.toInteger with
  | error e =>
    rw [hn] at h
    cases h
  | ok n =>
    rw [hn] at h
    cases h
    exact ⟨(mapM_forall₂ hcands).length_eq.symm, n, rfl, rfl⟩

/-- A state read from an object of the saved shape reads its fields from the
listed items. -/
theorem ofValue_saved {w : Value} {items : List Value} {s' : MappingState}
    (h : ofValue (.obj [("workflowType", w), ("fieldMappings", .arr items)]) = .ok s') :
    items.mapM FieldMapping.ofValue = .ok s'.fields := by
  simp only [ExceptT.stM_eq, ofValue, Value.member, Fields.get?, String.reduceBEq, Bool.false_eq_true,
    not_false_eq_true, List.find?_cons_of_neg, BEq.rfl, List.find?_cons_of_pos, Option.map_some, Value.iterate,
    bind_pure_comp, except_ok_bind] at h
  -- the fields are read before the category
  obtain ⟨fields, hfields, h⟩ := exists_of_bind_eq_ok h
  cases hc : Category.ofValue w with
  | error e =>
    rw [hc] at h
    cases h
  | ok cat =>
    rw [hc] at h
    cases h
    exact hfields

/-- A whole position is read back from its saved form as the number it stands
for. -/
theorem toInteger_rereadBy {p : Position} {i : Int} (h : p.wholeValue? = some i) (text : String → String) :
    (p.toValue.rereadBy text).toInteger = .ok i := by
  cases p <;> cases h <;> rfl

/-- **Reading back the text saved for a state keeps every field sound**: the
candidates keep their number and each whole position reads back as itself. -/
theorem restore_inRange {s s' : MappingState} (hr : (s.toText >>= ofText) = .ok s')
    (h : ∀ m ∈ s.fields, Sound m) : ∀ m ∈ s'.fields, Sound m := by
  obtain ⟨text, htext, hr⟩ := exists_of_bind_eq_ok hr
  obtain ⟨hw, rfl⟩ := Value.textBy_eq_ok.1 htext
  obtain ⟨v, hdec, hv⟩ := ofText_eq_ok.1 hr
  rw [decode_renderBy Layout.inlineAscii_separated Reader.quotesAs_rejoined _ hw] at hdec
  cases hdec
  rw [toValue_rereadBy] at hv
  refine mapM_forall_ok_of_mem (fun a ha m' hm' => ?_) (ofValue_saved hv)
  obtain ⟨m, hm, rfl⟩ := List.mem_map.1 ha
  rw [FieldMapping.toValue_rereadBy] at hm'
  obtain ⟨hlen, n, hn, hsel⟩ := FieldMapping.ofValue_saved hm'
  obtain ⟨hwhole, hrange⟩ := h m hm
  obtain ⟨i, hi⟩ := Option.isSome_iff_exists.1 hwhole
  -- the position read back is the whole number saved
  have hni : n = i := by
    rw [toInteger_rereadBy hi] at hn
    exact (Except.ok.inj hn).symm
  have hwv : m'.selected.wholeValue? = some i := by rw [hsel, hni]; rfl
  refine ⟨by rw [hsel]; rfl, ?_⟩
  rw [FieldMapping.inRange_of_wholeValue hwv, hlen, List.length_map, ← FieldMapping.inRange_of_wholeValue hi]
  exact hrange

/-- The states a mapping editor holds: the analysis of any graph, what a
selection at a whole position makes of one, and what reading back the text
saved for one gives (when it can be saved). -/
inductive Obtained : MappingState → Prop
  | analyze (g : Graph) (c : Category) (schema : Schema) : Obtained (MappingState.analyze g c schema)
  | select {s s' : MappingState} {key index : Value} : Obtained s → wholeIndex index = true →
      s.select key index = .ok s' → Obtained s'
  | restore {s s' : MappingState} : Obtained s → (s.toText >>= ofText) = .ok s' → Obtained s'

/-- **Every field of a state the editor holds is sound.** -/
theorem Obtained.sound {s : MappingState} (h : Obtained s) : ∀ m ∈ s.fields, Sound m := by
  induction h with
  | analyze g c schema => exact analyze_inRange
  | select _ hi hs ih => exact select_inRange hi hs ih
  | restore _ hr ih => exact restore_inRange hr ih

/-! ## Selecting outside the candidates, or for no field -/

theorem FieldMapping.select_int (m : FieldMapping) (i : Int) :
    m.select (.int i) = if -1 ≤ i ∧ i < m.candidates.length then .ok { m with selected := .index i }
      else .error (m.outOfRange (.int i)) := by
  have hw : (Position.index i).wholeValue? = some i := rfl
  simp only [FieldMapping.select, pure_bind, Position.atLeast_of_wholeValue hw, Position.below_of_wholeValue hw,
    ← Bool.decide_and]
  by_cases hr : -1 ≤ i ∧ i < m.candidates.length <;> simp [hr] <;> rfl

/-- **A position outside the candidates of a field of the key is refused** as
an invalid parameter. -/
theorem select_out_of_range {s : MappingState} {key : Value} {i : Int} {m : FieldMapping} (hm : m ∈ s.fields)
    (hkey : m.field.key.equiv key = true) (hout : ¬(-1 ≤ i ∧ i < m.candidates.length)) :
    ∃ m' ∈ s.fields, s.select key (.int i) = .error (m'.outOfRange (.int i)) := by
  obtain ⟨cat, fs⟩ := s
  have hfm : (if m.field.key.equiv key then m.select (.int i) else .ok m) = .error (m.outOfRange (.int i)) := by
    rw [if_pos hkey, FieldMapping.select_int, if_neg hout]
  obtain ⟨m', hm', e, hfm', hfail⟩ :=
    mapM_error (f := fun m => if m.field.key.equiv key then m.select (.int i) else .ok m) hm hfm
  -- a field fails only where its key matches and the position misses its candidates
  have he : e = m'.outOfRange (.int i) := by
    split at hfm'
    · rw [FieldMapping.select_int] at hfm'
      split at hfm'
      · cases hfm'
      · exact (Except.error.inj hfm').symm
    · cases hfm'
  refine ⟨m', hm', ?_⟩
  unfold select
  rw [hfail, he]
  rfl

/-- **Selecting for a key of no field changes nothing.** -/
theorem select_of_no_field {s : MappingState} {key index : Value} (h : ∀ m ∈ s.fields, m.field.key.equiv key = false) :
    s.select key index = .ok s := by
  obtain ⟨cat, fs⟩ := s
  have hkeep : ∀ m ∈ fs, (if m.field.key.equiv key then m.select index else .ok m) = .ok (id m) := by
    intro m hm
    rw [if_neg (by simp [h m hm]), id]
  have hmap := mapM_map_of_ok (f := fun m : FieldMapping => if m.field.key.equiv key then m.select index else .ok m)
    (g := id) hkeep
  rw [List.map_id] at hmap
  unfold select
  rw [hmap]
  rfl


/-! ## Every step can be taken

A selection at `-1` is within range of every field, and the text saved for a
state whose positions are whole numbers always reads back, so neither step
above is ever out of reach. -/

/-- **Selecting `-1` clears every field of the key**, whatever its candidates. -/
theorem select_clear (s : MappingState) (key : Value) :
    s.select key (.int (-1)) =
      .ok { s with fields := s.fields.map fun m => if m.field.key.equiv key then m.clear else m } := by
  have hstep : ∀ m ∈ s.fields, (if m.field.key.equiv key then m.select (.int (-1)) else .ok m) =
      .ok (if m.field.key.equiv key then m.clear else m) := by
    intro m _
    split
    · rw [FieldMapping.select_int, if_pos ⟨le_refl _, by omega⟩]
      rfl
    · rfl
  unfold select
  rw [mapM_eq_ok_map hstep]
  rfl

/-- A candidate's saved form reads back from its ASCII text. -/
theorem Candidate.ofValue_rereadBy_ok (c : Candidate) :
    ∃ c', Candidate.ofValue (c.toValue.rereadBy Text.rejoined) = .ok c' := by
  have hkeys : ∀ kv ∈ [("nodeId", Value.str c.nodeId), ("nodeName", Value.str c.nodeTitle),
      ("classType", Value.str c.classType), ("inputKey", Value.str c.inputKey),
      ("currentValue", c.currentValue)], Text.rejoined kv.1 = kv.1 := by
    intro kv hkv
    simp only [List.mem_cons, List.not_mem_nil, or_false] at hkv
    rcases hkv with rfl | rfl | rfl | rfl | rfl <;> exact rejoined_ascii (by simp)
  rw [Candidate.toValue, rereadBy_obj_of_fixed hkeys (by simp only [List.map_cons, List.map_nil]; decide)]
  exact ⟨_, rfl⟩

/-- A field mapping at a whole position reads back from its ASCII text. -/
theorem FieldMapping.ofValue_rereadBy_ok {m : FieldMapping} (hw : m.selected.whole = true) :
    ∃ m', FieldMapping.ofValue (m.toValue.rereadBy Text.rejoined) = .ok m' := by
  obtain ⟨i, hi⟩ := Option.isSome_iff_exists.1 hw
  obtain ⟨cs, hcs⟩ := mapM_ok_of_forall (f := Candidate.ofValue)
    (l := m.candidates.map fun c => c.toValue.rereadBy Text.rejoined) fun a ha => by
      obtain ⟨c, -, rfl⟩ := List.mem_map.1 ha
      exact Candidate.ofValue_rereadBy_ok c
  rw [FieldMapping.toValue_rereadBy]
  simp only [FieldMapping.ofValue, Value.member, Fields.get?, BEq.rfl, List.find?_cons_of_pos,
    Option.map_some, String.reduceBEq, Bool.false_eq_true, not_false_eq_true, List.find?_cons_of_neg,
    Value.iterate, Value.memberOr, Value.fields?, Option.getD_some, except_ok_bind, hcs,
    toInteger_rereadBy hi]
  exact ⟨_, rfl⟩

/-- **The saved text of a state at whole positions reads back**, whenever the
state can be saved. -/
theorem toText_ofText_ok {s : MappingState} (hw : Issue.writable s.toValue = true)
    (hwhole : ∀ m ∈ s.fields, m.selected.whole = true) : ∃ s', (s.toText >>= ofText) = .ok s' := by
  obtain ⟨fs, hfs⟩ := mapM_ok_of_forall (f := FieldMapping.ofValue)
    (l := s.fields.map fun m => m.toValue.rereadBy Text.rejoined) fun a ha => by
      obtain ⟨m, hm, rfl⟩ := List.mem_map.1 ha
      exact FieldMapping.ofValue_rereadBy_ok (hwhole m hm)
  have hcode : Text.rejoined s.category.code = s.category.code := by
    cases s.category <;> exact rejoined_ascii (by simp [Category.code])
  refine ⟨⟨s.category, fs⟩, ?_⟩
  rw [toText_of_writable hw, except_ok_bind]
  refine ofText_eq_ok.2 ⟨_, decode_renderBy Layout.inlineAscii_separated Reader.quotesAs_rejoined _ hw, ?_⟩
  rw [toValue_rereadBy, hcode]
  simp only [ofValue, Value.member, Fields.get?, BEq.rfl, List.find?_cons_of_pos, Option.map_some,
    String.reduceBEq, Bool.false_eq_true, not_false_eq_true, List.find?_cons_of_neg, Value.iterate,
    except_ok_bind, hfs, Category.ofValue_code]
  rfl

/-- **Every selection of a state the editor holds stays within its field's
candidates.** Every field of a state made from an analysis by selections at
whole positions and by reading back saved text sits at a whole position `i`
with `-1 ≤ i` below the number of candidates, so it is mapped exactly when
`0 ≤ i`, asks for a new selection exactly when it has candidates and `i = -1`,
and with candidates does one or the other. In any state, selecting a field of
the key at an integer outside that range is refused as an invalid parameter of
a field of the key, and selecting for a key that no field has gives the same
state. -/
theorem obtained_selection_in_range :
    (∀ s, Obtained s → ∀ m ∈ s.fields, ∃ i, m.selected.wholeValue? = some i ∧ -1 ≤ i ∧ i < m.candidates.length ∧
        m.isMapped = .ok (decide (0 ≤ i)) ∧ m.needsRemapping = (!m.candidates.isEmpty && decide (i = -1)) ∧
        (m.candidates ≠ [] → m.isMapped = .ok true ∨ m.needsRemapping = true)) ∧
      (∀ (s : MappingState) (key : Value) (i : Int), ∀ m ∈ s.fields, m.field.key.equiv key = true →
        ¬(-1 ≤ i ∧ i < m.candidates.length) → ∃ m' ∈ s.fields, s.select key (.int i) = .error (m'.outOfRange (.int i))) ∧
      (∀ (s : MappingState) (key index : Value), (∀ m ∈ s.fields, m.field.key.equiv key = false) →
        s.select key index = .ok s) := by
  refine ⟨fun s h m hm => ?_, fun s key i m hm hkey hout => select_out_of_range hm hkey hout,
    fun s key index h => select_of_no_field h⟩
  obtain ⟨hw, hr⟩ := h.sound m hm
  exact FieldMapping.flags_of_inRange hw hr

/-- The analysis of a lone prompt encoder, that analysis with the positive
prompt cleared, and what reading back its saved text gives. The prompt field
of the analysis has a candidate and is mapped; cleared, it asks for a new
selection; every field read back is sound. Selecting past the one candidate of
the prompt is refused, and selecting for the seed, which no field has, changes
nothing. -/
theorem obtained_selection_in_range_samples :
    let s := analyze loneEncoderGraph .textToImage Schema.empty
    let cleared : MappingState :=
      { s with fields := s.fields.map fun m => if m.field.key.equiv (.str "positive_text") then m.clear else m }
    s.select (.str "positive_text") (.int (-1)) = .ok cleared ∧
      (∃ m ∈ s.fields, m.candidates ≠ [] ∧ m.isMapped = .ok true) ∧
      (∃ m ∈ cleared.fields, m.candidates ≠ [] ∧ m.needsRemapping = true) ∧
      ∃ restored, (cleared.toText >>= ofText) = .ok restored ∧ Obtained restored ∧
        (∀ m ∈ restored.fields, ∃ i, m.selected.wholeValue? = some i ∧ -1 ≤ i ∧ i < m.candidates.length ∧
          m.isMapped = .ok (decide (0 ≤ i)) ∧ m.needsRemapping = (!m.candidates.isEmpty && decide (i = -1)) ∧
          (m.candidates ≠ [] → m.isMapped = .ok true ∨ m.needsRemapping = true)) ∧
        (∃ m' ∈ cleared.fields,
          cleared.select (.str "positive_text") (.int 1) = .error (m'.outOfRange (.int 1))) ∧
        cleared.select (.str "seed") (.int 1) = .ok cleared := by
  intro s cleared
  have hsel : s.select (.str "positive_text") (.int (-1)) = .ok cleared := select_clear s _
  have hs : Obtained s := .analyze _ _ _
  have hcleared : Obtained cleared := .select hs rfl hsel
  -- the first field of the analysis is the positive prompt, selecting its one candidate
  have hhead : s.fields.head?.map (fun m => (m.field.key.equiv (.str "positive_text"), m.candidates.length,
      m.selected.wholeValue?)) = some (true, 1, some 0) := by decide
  obtain ⟨m, hfirst, hmval⟩ := Option.map_eq_some_iff.1 hhead
  simp only [Prod.mk.injEq] at hmval
  obtain ⟨hkey, hlen, hpos⟩ := hmval
  have hmem : m ∈ s.fields := List.mem_of_mem_head? hfirst
  have hne : m.candidates ≠ [] := fun h => by simp [h] at hlen
  obtain ⟨i, hi, -, -, hmapped, -, -⟩ := obtained_selection_in_range.1 s hs m hmem
  obtain rfl : i = 0 := Option.some.inj (hi.symm.trans hpos)
  -- cleared, the prompt field sits at `-1`
  have hmc : m.clear ∈ cleared.fields := List.mem_map.2 ⟨m, hmem, by rw [if_pos hkey]⟩
  obtain ⟨j, hj, -, -, -, hremap, -⟩ := obtained_selection_in_range.1 cleared hcleared m.clear hmc
  obtain rfl : j = -1 := (Option.some.inj hj).symm
  -- the other fields hold no integer too long to write and no key `seed`
  have hct : loneEncoderGraph.classTypes = ["CLIPTextEncode"] := by
    simp only [Graph.classTypes, loneEncoderGraph, List.map_cons, List.map_nil, List.mergeSort_singleton]
    decide
  have hw : Issue.writable cleared.toValue = true := by
    simp only [cleared, s, analyze, hct]
    decide
  have hseed : ∀ m ∈ cleared.fields, m.field.key.equiv (.str "seed") = false := by
    simp only [cleared, s, analyze, hct]
    decide
  obtain ⟨restored, hrestored⟩ := toText_ofText_ok hw fun m hm => (hcleared.sound m hm).1
  have hobt : Obtained restored := .restore hcleared hrestored
  have hout : ¬(-1 ≤ (1 : Int) ∧ (1 : Int) < m.clear.candidates.length) := by
    show ¬(-1 ≤ (1 : Int) ∧ (1 : Int) < m.candidates.length)
    rw [hlen]
    decide
  refine ⟨hsel, ⟨m, hmem, hne, hmapped⟩, ⟨m.clear, hmc, hne, ?_⟩, restored, hrestored, hobt,
    obtained_selection_in_range.1 restored hobt,
    obtained_selection_in_range.2.1 cleared _ 1 m.clear hmc hkey hout,
    obtained_selection_in_range.2.2 cleared _ _ hseed⟩
  rw [hremap]
  simpa [FieldMapping.clear] using hne

/-- **Reading text checks no position.** The saved text of `onePrompt` at the
position `3`, past its one candidate, reads back as that state, whose field
has a candidate, sits out of range, and is neither mapped nor asking for a new
selection. -/
theorem ofText_index_past_candidates :
    ((onePrompt (.index 3)).toText >>= ofText) = .ok (onePrompt (.index 3)) ∧
      ∃ m ∈ (onePrompt (.index 3)).fields, m.candidates ≠ [] ∧ m.inRange = false ∧
        m.isMapped = .ok false ∧ m.needsRemapping = false := by
  have hs : (onePrompt (.index 3)).toValue.settled = true := by
    rw [onePrompt_settled]
    decide
  have hidx : ∀ m ∈ (onePrompt (.index 3)).fields, m.selected.isIndex = true := by
    simp [onePrompt, Position.isIndex]
  refine ⟨?_, _, List.mem_cons_self, by simp, ?_, ?_, ?_⟩
  · rw [toText_of_writable (Value.writable_of_settled _ hs)]
    exact ofText_eq_ok.2 ⟨_, decode_render_settled hs, ofValue_toValue hidx⟩
  · decide
  · rfl
  · rfl

end MappingState

end NodeFlow
