import Mathlib.Data.List.Basic
import NodeFlow.Mapping.Placement
/-!
# What a mapping state selects

Every candidate an analysis finds names an input that a node of the graph has
(`analyze_offers`): the prompt encoders are nodes with their text input, and
the other fields are found among a node's inputs, or, for the image, among the
inputs of its class that the node has.

A field selects the candidate its position names (`FieldMapping.chosen?`),
the first one after an analysis. The field keys of a category are distinct
texts (`Category.keys_nodup`), so a state whose positions are whole numbers
writes each selected field once, in field order (`bindings_eq`).
-/

namespace NodeFlow

open Json

namespace Graph

/-- A candidate naming an input that a node of the graph has. -/
def Offers (g : Graph) (c : Candidate) : Prop :=
  ∃ n ∈ g.nodes, ∃ key, n.inputs.has key = true ∧ c = Candidate.ofInput n key

variable {g : Graph} {schema : Schema}

theorem has_of_mem_inputs {n : Node} {p : String × InputValue} (hp : p ∈ n.inputs) :
    n.inputs.has p.1 = true :=
  List.any_eq_true.2 ⟨p, hp, by simp⟩

theorem mem_promptEncoders {p : Node × String} (h : p ∈ g.promptEncoders schema) :
    p.1 ∈ g.nodes ∧ p.1.inputs.has p.2 = true := by
  unfold promptEncoders at h
  dsimp only at h
  split at h
  · -- a node with a `text` or `prompt` input
    obtain ⟨n, hn, hp⟩ := List.mem_filterMap.1 h
    obtain ⟨key, hkey, rfl⟩ := Option.map_eq_some_iff.1 hp
    exact ⟨hn, List.find?_some hkey⟩
  · -- a conditioning producer with a text input of its class
    obtain ⟨n, hn, hp⟩ := List.mem_flatMap.1 h
    split at hp
    · exact absurd hp List.not_mem_nil
    · split at hp
      · exact absurd hp List.not_mem_nil
      · obtain ⟨d, hd, rfl⟩ := List.mem_map.1 hp
        exact ⟨hn, (by simpa using (List.mem_filter.1 hd).2 : _ ∧ _).2⟩

/-- Every prompt candidate is offered by the graph. -/
theorem promptCandidates_offers :
    (∀ c ∈ (g.promptCandidates schema).1, g.Offers c) ∧ ∀ c ∈ (g.promptCandidates schema).2, g.Offers c := by
  unfold promptCandidates
  refine List.foldlRecOn
    (motive := fun acc : List Candidate × List Candidate => (∀ c ∈ acc.1, g.Offers c) ∧ ∀ c ∈ acc.2, g.Offers c)
    _ _ ⟨fun _ h => absurd h List.not_mem_nil, fun _ h => absurd h List.not_mem_nil⟩ ?_
  rintro acc ⟨h1, h2⟩ ⟨n, key⟩ hp
  obtain ⟨hn, hk⟩ := mem_promptEncoders hp
  have hc : g.Offers (Candidate.ofInput n key) := ⟨n, hn, key, hk, rfl⟩
  -- each branch puts the encoder's candidate in front of or after one list or both
  dsimp only
  split
  · exact ⟨List.forall_mem_cons.2 ⟨hc, h1⟩, h2⟩
  · exact ⟨h1, List.forall_mem_cons.2 ⟨hc, h2⟩⟩
  · split
    · exact ⟨List.forall_mem_append.2 ⟨h1, List.forall_mem_singleton.2 hc⟩, h2⟩
    · split
      · exact ⟨h1, List.forall_mem_append.2 ⟨h2, List.forall_mem_singleton.2 hc⟩⟩
      · exact ⟨List.forall_mem_append.2 ⟨h1, List.forall_mem_singleton.2 hc⟩,
          List.forall_mem_append.2 ⟨h2, List.forall_mem_singleton.2 hc⟩⟩

/-- Every candidate of a field is offered by the graph, when the prompt lists
it draws on are. -/
theorem fieldCandidates_offers {prompts : List Candidate × List Candidate}
    (hp : (∀ c ∈ prompts.1, g.Offers c) ∧ ∀ c ∈ prompts.2, g.Offers c) (key : String) :
    ∀ c ∈ g.fieldCandidates schema prompts key, g.Offers c := by
  unfold fieldCandidates
  split
  · exact hp.1
  · split
    · exact hp.2
    · dsimp only
      split
      · -- candidates found by input name
        intro c hc
        obtain ⟨n, hn, hc⟩ := List.mem_flatMap.1 hc
        obtain ⟨p, hp, rfl⟩ := List.mem_map.1 hc
        exact ⟨n, hn, p.1, has_of_mem_inputs (List.mem_filter.1 hp).1, rfl⟩
      · -- the image falls back to the file choices of image producers
        intro c hc
        obtain ⟨n, hn, hc⟩ := List.mem_flatMap.1 hc
        split at hc
        · exact absurd hc List.not_mem_nil
        · split at hc
          · exact absurd hc List.not_mem_nil
          · obtain ⟨d, hd, rfl⟩ := List.mem_map.1 hc
            exact ⟨n, hn, d.name, (by simpa using (List.mem_filter.1 hd).2 : _ ∧ _).2, rfl⟩

/-- **Every candidate an analysis finds names an input the graph has.** -/
theorem analyze_offers {c : Category} {m : FieldMapping} (hm : m ∈ (MappingState.analyze g c schema).fields) :
    ∀ cand ∈ m.candidates, g.Offers cand := by
  unfold MappingState.analyze at hm
  obtain ⟨⟨key, req⟩, -, rfl⟩ := List.mem_map.1 hm
  exact fieldCandidates_offers promptCandidates_offers key

end Graph

/-! ## The selected candidate -/

namespace Position

/-- The whole number a position stands for: an integer as it is, a flag as
one or zero; a double stands for none. -/
def wholeValue? : Position → Option Int
  | .index n => some n
  | .flag b => some (if b then 1 else 0)
  | .double _ => none

/-- A position given as a whole number: an integer or a flag. -/
def whole (p : Position) : Bool := p.wholeValue?.isSome

variable {p : Position} {i : Int}

theorem cmp_of_wholeValue (h : p.wholeValue? = some i) (k : Int) : p.cmp k = some (compare i k) := by
  cases p <;> cases h <;> rfl

theorem atLeast_of_wholeValue (h : p.wholeValue? = some i) (k : Int) : p.atLeast k = decide (k ≤ i) := by
  rw [atLeast, cmp_of_wholeValue h, Bool.eq_iff_iff]
  simp only [Bool.or_eq_true, beq_iff_eq, Option.some.injEq, Int.compare_eq_gt, Int.compare_eq_eq,
    decide_eq_true_eq]
  omega

theorem below_of_wholeValue (h : p.wholeValue? = some i) (k : Int) : p.below k = decide (i < k) := by
  rw [below, cmp_of_wholeValue h, Bool.eq_iff_iff]
  simp only [beq_iff_eq, Option.some.injEq, Int.compare_eq_lt, decide_eq_true_eq]

end Position

namespace FieldMapping

/-- The candidate a field's position names: a whole number within the
candidates names one, anything else none. -/
def chosen? (m : FieldMapping) : Option Candidate :=
  match m.selected.wholeValue? with
  | some i => if 0 ≤ i then m.candidates[i.toNat]? else none
  | none => none

/-- **A whole position is read without failure**, as the candidate it names. -/
theorem selectedCandidate?_eq {m : FieldMapping} (h : m.selected.whole = true) :
    m.selectedCandidate? = .ok m.chosen? := by
  obtain ⟨i, hi⟩ := Option.isSome_iff_exists.1 h
  have hpick : (match m.selected with
      | .index n => Except.ok m.candidates[n.toNat]?
      | .flag b => .ok m.candidates[if b then 1 else 0]?
      | .double _ => .error (.badIndex "tuple" "float") : Outcome (Option Candidate)) =
      .ok m.candidates[i.toNat]? := by
    cases hs : m.selected <;> rw [hs] at hi <;> cases hi
    · rfl
    · rename_i b
      cases b <;> rfl
  unfold selectedCandidate? chosen?
  rw [Position.atLeast_of_wholeValue hi, Position.below_of_wholeValue hi, hi]
  dsimp only
  by_cases h0 : 0 ≤ i
  · by_cases hl : i < m.candidates.length
    · rw [if_pos (by simp [h0, hl]), if_pos h0]
      exact hpick
    · have hnone : m.candidates[i.toNat]? = none := List.getElem?_eq_none (by omega)
      rw [if_neg (by simp [hl]), if_pos h0, hnone]
  · simp [h0]

end FieldMapping

namespace Category

/-- **The fields of a category have distinct keys**, whichever loaders and
guiders the graph has. -/
theorem keys_nodup (c : Category) (present : List String) :
    (c.requiredKeys ++ c.optionalKeys present).Nodup := by
  unfold optionalKeys
  cases c <;> dsimp only <;> split <;> split <;> decide

/-- The optional fields depend on the class types present only through which
of them occur. -/
theorem optionalKeys_classTypes (c : Category) (g : Graph) :
    c.optionalKeys g.classTypes = c.optionalKeys (g.nodes.map (·.classType)) := by
  have hcontains : ∀ x, g.classTypes.contains x = (g.nodes.map (·.classType)).contains x := by
    intro x
    rw [Bool.eq_iff_iff, List.contains_iff_mem, List.contains_iff_mem, Graph.classTypes, List.mem_eraseDups,
      List.mem_mergeSort]
  simp only [optionalKeys, hcontains]

end Category

/-- Two texts are the same key exactly when they are equal. -/
theorem sameKey_str (a b : String) : sameKey (.str a) (.str b) = (a == b) := by
  simp [sameKey, Value.equiv]

namespace MappingState

/-- The field key with the node and input of the selected candidate, for every
field that selects one, in field order. -/
def selections (s : MappingState) : Bindings :=
  s.fields.filterMap fun m => m.chosen?.map fun c => (m.field.key, c.nodeId, c.inputKey)

theorem ok_bind {α β : Type} (a : α) (f : α → Outcome β) : (Except.ok a >>= f) = f a := rfl

theorem put_fresh {bs : Bindings} {k : String} {t : String × String}
    (h : ∀ b ∈ bs, sameKey b.1 (.str k) = false) : Bindings.put bs (.str k) t = .ok (bs ++ [(.str k, t)]) := by
  have hany : bs.any (fun b => sameKey b.1 (.str k)) = false := List.any_eq_false.2 fun b hb => by simp [h b hb]
  simp [Bindings.put, Value.hashable, hany]

/-- **A state with whole positions and distinct text keys writes each selected
field once, in field order.** -/
theorem bindings_eq {s : MappingState} (hw : ∀ m ∈ s.fields, m.selected.whole = true) {keys : List String}
    (hk : s.fields.map (·.field.key) = keys.map .str) (hnd : keys.Nodup) : s.bindings = .ok s.selections := by
  unfold bindings selections
  rw [← List.nil_append (List.filterMap _ s.fields)]
  have hfresh : ∀ b ∈ ([] : Bindings), ∀ k ∈ keys, sameKey b.1 (.str k) = false :=
    fun _ h => absurd h List.not_mem_nil
  generalize ([] : Bindings) = acc at hfresh ⊢
  obtain ⟨cat, fields⟩ := s
  dsimp only at hw hk ⊢
  -- the keys still to come are none of those already written
  induction fields generalizing acc keys with
  | nil => simp only [List.foldlM_nil, List.filterMap_nil, List.append_nil]; rfl
  | cons m fields ih =>
    cases keys with
    | nil => cases hk
    | cons k keys =>
      rw [List.map_cons, List.map_cons, List.cons.injEq] at hk
      rw [List.nodup_cons] at hnd
      rw [List.foldlM_cons, FieldMapping.selectedCandidate?_eq (hw m List.mem_cons_self), ok_bind]
      have hw' : ∀ m ∈ fields, m.selected.whole = true := fun m hm => hw m (List.mem_cons_of_mem _ hm)
      cases hc : m.chosen? with
      | none =>
        dsimp only
        rw [ok_bind, List.filterMap_cons_none (by simp [hc])]
        exact ih hnd.2 acc (fun b hb k' hk' => hfresh b hb k' (List.mem_cons_of_mem _ hk')) hw' hk.2
      | some c =>
        have hput := put_fresh (t := (c.nodeId, c.inputKey)) fun b hb => hfresh b hb k List.mem_cons_self
        dsimp only
        rw [hk.1, hput, ok_bind, List.filterMap_cons_some (b := (Value.str k, c.nodeId, c.inputKey)) (by simp [hc, hk.1]), ih hnd.2 _ ?_ hw' hk.2,
          List.append_assoc, List.singleton_append]
        -- the key just written is none of those still to come
        intro b hb k' hk'
        rcases List.mem_append.1 hb with hb | hb
        · exact hfresh b hb k' (List.mem_cons_of_mem _ hk')
        · have hne : k ≠ k' := fun h => hnd.1 (h ▸ hk')
          rw [List.mem_singleton.1 hb, sameKey_str]
          simpa using hne

/-! ## The state an analysis builds -/

theorem isMapped_eq {m : FieldMapping} (h : m.selected.whole = true) : m.isMapped = .ok m.chosen?.isSome := by
  unfold FieldMapping.isMapped
  rw [FieldMapping.selectedCandidate?_eq h]
  rfl

theorem allM_ok {α : Type} {f : α → Outcome Bool} {q : α → Bool} :
    ∀ {l : List α}, (∀ a ∈ l, f a = .ok (q a)) → l.allM f = .ok (l.all q)
  | [], _ => rfl
  | a :: l, hf => by
    simp only [List.allM, hf a List.mem_cons_self, List.all_cons]
    cases q a
    · rfl
    · exact allM_ok fun b hb => hf b (List.mem_cons_of_mem _ hb)

variable {g : Graph} {c : Category} {schema : Schema}

/-- The field an analysis makes for a key. -/
theorem mem_analyze {m : FieldMapping} (hm : m ∈ (analyze g c schema).fields) :
    ∃ key required, m.field = FieldInfo.ofKey key ∧ m.required = required ∧
      m.candidates = g.fieldCandidates schema (g.promptCandidates schema) key ∧
      m.selected = .index (if m.candidates.isEmpty then -1 else 0) := by
  unfold analyze at hm
  obtain ⟨⟨key, required⟩, -, rfl⟩ := List.mem_map.1 hm
  exact ⟨key, required, rfl, rfl, rfl, rfl⟩

theorem analyze_whole : ∀ m ∈ (analyze g c schema).fields, m.selected.whole = true := by
  intro m hm
  obtain ⟨-, -, -, -, -, hs⟩ := mem_analyze hm
  rw [hs]
  rfl

/-- **Each field of an analysis selects its first candidate.** -/
theorem analyze_chosen {m : FieldMapping} (hm : m ∈ (analyze g c schema).fields) :
    m.chosen? = m.candidates.head? := by
  obtain ⟨-, -, -, -, -, hs⟩ := mem_analyze hm
  unfold FieldMapping.chosen?
  rw [hs]
  cases m.candidates <;> rfl

theorem analyze_keys :
    (analyze g c schema).fields.map (·.field.key) = (c.requiredKeys ++ c.optionalKeys g.classTypes).map .str := by
  simp [analyze, FieldInfo.ofKey, Function.comp_def]

/-- A required key has a required field in the analysis. -/
theorem mem_analyze_required {r : String} (hr : r ∈ c.requiredKeys) :
    ∃ m ∈ (analyze g c schema).fields, m.field.key = .str r ∧ m.required = true := by
  unfold analyze
  refine ⟨_, List.mem_map_of_mem (List.mem_append_left _ (List.mem_map_of_mem (f := (·, true)) hr)), rfl, rfl⟩

/-- **An analysis maps all fields exactly when every required field has a
candidate.** -/
theorem allMapped_analyze :
    (analyze g c schema).allMapped = .ok ((analyze g c schema).fields.all fun m => !m.required || !m.candidates.isEmpty) := by
  unfold allMapped
  have hstep : ∀ m ∈ (analyze g c schema).fields,
      (if m.required then m.isMapped else pure true) = Except.ok (!m.required || !m.candidates.isEmpty) := by
    intro m hm
    rw [isMapped_eq (analyze_whole m hm), analyze_chosen hm]
    cases m.required <;> cases m.candidates <;> rfl
  exact allM_ok hstep

end MappingState

end NodeFlow
