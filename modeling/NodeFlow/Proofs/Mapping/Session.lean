import NodeFlow.Proofs.Mapping.Template
import NodeFlow.Proofs.Outcome
/-!
# The states of a mapping session

A mapping session starts from the analysis of a graph and selects, for the
fields of a key, the candidate at a position (`MappingState.Reachable`).
Selecting moves only the position, and an integer or a flag leaves it a whole
number: every state a session reaches is the analysis once positions are
cleared (`Reachable.cleared`), its positions are whole numbers
(`Reachable.whole`), and the template it writes is a fold of plain writes
(`Reachable.template_eq`) whose keys are distinct fields of the category.

On a graph with distinct node ids, writing selections whose targets are
distinct inputs of the graph replaces exactly those inputs by their fields'
literals and leaves every other input as it was (`foldl_write_eq`).
-/

namespace NodeFlow

open Json

namespace MappingState

/-- An index given as a whole number: an integer, or a flag standing for one
or zero. -/
def wholeIndex : Value → Bool
  | .int _ | .bool _ => true
  | _ => false

/-- The states a mapping session reaches from the analysis of a graph, each
step selecting the candidate at a whole-number position for the fields of a
key. -/
inductive Reachable (g : Graph) (c : Category) (schema : Schema) : MappingState → Prop
  | analyze : Reachable g c schema (analyze g c schema)
  | select {s s' : MappingState} {key index : Value} : Reachable g c schema s → wholeIndex index = true →
      s.select key index = .ok s' → Reachable g c schema s'

/-- Selecting at a whole-number position keeps the field with its candidates
and leaves a whole position. -/
theorem FieldMapping.select_eq {m m' : FieldMapping} {index : Value} (hi : wholeIndex index = true)
    (h : m.select index = .ok m') : m'.clear = m.clear ∧ m'.selected.whole = true := by
  unfold FieldMapping.select at h
  cases index with
  | int _ | bool _ =>
    -- the position is checked against the candidates, and kept whole
    simp only [pure_bind] at h
    split at h
    · cases h
      exact ⟨rfl, rfl⟩
    · cases h
  | _ => cases hi

/-- **Selecting for a key keeps every field with its candidates**, and moves
the positions of the fields it selects for to whole numbers. -/
theorem select_fields {s s' : MappingState} {key index : Value} (hi : wholeIndex index = true)
    (h : s.select key index = .ok s') :
    s'.fields.map FieldMapping.clear = s.fields.map FieldMapping.clear ∧
      ∀ m' ∈ s'.fields, m'.selected.whole = true ∨ m' ∈ s.fields := by
  obtain ⟨cat, fs⟩ := s
  unfold select at h
  cases hf : fs.mapM (fun m => if m.field.key.equiv key then m.select index else .ok m) with
  | error e =>
    rw [hf] at h
    cases h
  | ok fields =>
    rw [hf, ok_bind] at h
    cases h
    dsimp only
    have hall := mapM_forall₂ hf
    clear hf
    -- field by field, each is selected for or kept
    induction hall with
    | nil => exact ⟨rfl, fun _ h => absurd h List.not_mem_nil⟩
    | @cons m m' ms ms' hm _ ih =>
      have hstep : m'.clear = m.clear ∧ (m'.selected.whole = true ∨ m' = m) := by
        split at hm
        · exact (FieldMapping.select_eq hi hm).imp_right .inl
        · cases hm
          exact ⟨rfl, .inr rfl⟩
      obtain ⟨hmap, hwhole⟩ := ih
      refine ⟨by rw [List.map_cons, List.map_cons, hstep.1, hmap], ?_⟩
      intro x hx
      rcases List.mem_cons.1 hx with rfl | hx
      · exact hstep.2.imp_right fun (h : x = m) => h ▸ List.mem_cons_self
      · exact (hwhole x hx).imp_right (List.mem_cons_of_mem _)

variable {g : Graph} {c : Category} {schema : Schema} {s : MappingState}

/-- **Cleared of positions, a reachable state is the analysis.** -/
theorem Reachable.cleared (h : Reachable g c schema s) :
    s.fields.map FieldMapping.clear = (MappingState.analyze g c schema).fields.map FieldMapping.clear := by
  induction h with
  | analyze => rfl
  | select _ hi hs ih => rw [(select_fields hi hs).1, ih]

/-- **Every position of a reachable state is a whole number.** -/
theorem Reachable.whole (h : Reachable g c schema s) : ∀ m ∈ s.fields, m.selected.whole = true := by
  induction h with
  | analyze => exact analyze_whole
  | select _ hi hs ih =>
    intro m hm
    exact ((select_fields hi hs).2 m hm).elim id (ih m)

theorem Reachable.keys (h : Reachable g c schema s) :
    s.fields.map (·.field.key) = (c.requiredKeys ++ c.optionalKeys g.classTypes).map .str := by
  have hkey : ∀ fs : List FieldMapping, fs.map (·.field.key) = (fs.map FieldMapping.clear).map (·.field.key) := by
    intro fs
    simp [FieldMapping.clear]
  rw [hkey, h.cleared, ← hkey, analyze_keys]

/-- **A reachable state writes its selections in turn.** -/
theorem Reachable.template_eq (h : Reachable g c schema s) : g.template s = .ok (s.selections.foldl Graph.write g) :=
  Graph.template_eq h.whole h.keys (Category.keys_nodup c g.classTypes)

theorem mem_selections {b : Value × String × String} :
    b ∈ s.selections ↔ ∃ m ∈ s.fields, ∃ cand, m.chosen? = some cand ∧ (m.field.key, cand.nodeId, cand.inputKey) = b := by
  simp only [selections, List.mem_filterMap, Option.map_eq_some_iff]

theorem selections_keys_sublist (cat : Category) :
    ∀ fields : List FieldMapping, ((⟨cat, fields⟩ : MappingState).selections.map (·.1)).Sublist (fields.map (·.field.key))
  | [] => List.Sublist.slnil
  | m :: fields => by
    have ih := selections_keys_sublist cat fields
    unfold selections at ih ⊢
    cases hc : m.chosen? with
    | none =>
      simp only [List.filterMap_cons, hc, Option.map_none, List.map_cons]
      exact ih.cons _
    | some cand =>
      simp only [List.filterMap_cons, hc, Option.map_some, List.map_cons]
      exact ih.cons_cons _

/-- A field selected in a reachable state is a field of the category, under
its text key. -/
theorem Reachable.key_of_mem_selections (h : Reachable g c schema s) {b : Value × String × String}
    (hb : b ∈ s.selections) : ∃ k ∈ c.requiredKeys ++ c.optionalKeys g.classTypes, b.1 = .str k := by
  obtain ⟨m, hm, -, -, rfl⟩ := mem_selections.1 hb
  have hk : m.field.key ∈ (c.requiredKeys ++ c.optionalKeys g.classTypes).map .str := h.keys ▸ List.mem_map_of_mem hm
  obtain ⟨k, hk, hkey⟩ := List.mem_map.1 hk
  exact ⟨k, hk, hkey.symm⟩

/-- **The fields a reachable state selects have distinct keys.** -/
theorem Reachable.selections_keys_nodup (h : Reachable g c schema s) : (s.selections.map (·.1)).Nodup := by
  have hsub := selections_keys_sublist s.category s.fields
  rw [h.keys] at hsub
  exact hsub.nodup ((Category.keys_nodup c g.classTypes).map fun _ _ h => Value.str.inj h)

end MappingState

/-! ## The template as a map of inputs -/

namespace Graph

/-- The graph with the inputs of each node mapped by `f`, given the node's id. -/
def mapInputs (f : String → String × InputValue → String × InputValue) (g : Graph) : Graph :=
  { g with nodes := g.nodes.map fun n => { n with inputs := n.inputs.map (f n.id) } }

/-- Input `p` of node `id` in the template of `sel`: the literal of the field
that selects it, if one does. -/
def templateInput (sel : Bindings) (id : String) (p : String × InputValue) : String × InputValue :=
  match sel.find? (·.2 == (id, p.1)) with
  | some b => (p.1, fieldLiteral b.1)
  | none => p

variable {g : Graph}

theorem mapInputs_mapInputs (f f' : String → String × InputValue → String × InputValue) :
    (g.mapInputs f).mapInputs f' = g.mapInputs fun id => f' id ∘ f id := by
  simp [mapInputs, Function.comp_def]

theorem mapInputs_templateInput_nil : g.mapInputs (templateInput []) = g := by
  have hnil : ∀ x, templateInput [] x = fun p => p := fun _ => rfl
  simp [mapInputs, hnil]

/-- A field written before the others, at an input none of them selects. -/
theorem templateInput_cons {b : Value × String × String} {sel : Bindings} (hb : b.2 ∉ sel.map (·.2)) (id : String) :
    templateInput sel id ∘ templateInput [b] id = templateInput (b :: sel) id := by
  funext p
  have hnone : ∀ name, b.2 = (id, name) → sel.find? (·.2 == (id, name)) = none := by
    intro name hname
    rw [List.find?_eq_none]
    intro b' hb' heq
    exact hb (hname ▸ List.mem_map.2 ⟨b', hb', by simpa using heq⟩)
  by_cases ht : b.2 = (id, p.1)
  · simp [templateInput, ht, hnone p.1 ht]
  · simp [templateInput, ht]

/-- **A write is a map of inputs**, on a graph with distinct node ids and a
target it has. -/
theorem write_eq_mapInputs (hids : (g.nodes.map (·.id)).Nodup) {b : Value × String × String} (h : g.HasInput b.2) :
    g.write b = g.mapInputs (templateInput [b]) := by
  obtain ⟨k, id, name⟩ := b
  obtain ⟨n, hn, hid, hhas⟩ := h
  dsimp only at hid hhas
  subst hid
  unfold write
  dsimp only
  rw [get?_of_nodup hids hn]
  dsimp only
  rw [if_pos hhas]
  simp only [modify, mapInputs]
  congr 1
  apply List.map_congr_left
  intro m hm
  by_cases hm' : m.id = n.id
  · -- the one node with the target's id: its input of that name takes the literal
    have hmn : m = n := List.inj_on_of_nodup_map hids hm hn hm'
    subst hmn
    simp only [beq_self_eq_true, if_true, Node.setInput, Inputs.set, if_pos hhas]
    congr 1
    apply List.map_congr_left
    intro p _
    by_cases hp : p.1 = name
    · simp [templateInput, hp]
    · simp [templateInput, hp, Ne.symm hp]
  · have hkeep : ∀ p ∈ m.inputs, templateInput [(k, n.id, name)] m.id p = p := by
      intro p _
      have hne : ¬ (n.id, name) = (m.id, p.1) := fun h => hm' (Prod.mk.inj h).1.symm
      simp [templateInput, hne]
    simp only [beq_iff_eq, hm', if_false]
    rw [List.map_congr_left hkeep, List.map_id']

/-- **Writing selections with distinct targets that the graph has replaces
exactly those inputs** by the literals of the fields that select them. -/
theorem foldl_write_eq (hids : (g.nodes.map (·.id)).Nodup) {sel : Bindings} (htargets : (sel.map (·.2)).Nodup)
    (hhas : ∀ b ∈ sel, g.HasInput b.2) : sel.foldl write g = g.mapInputs (templateInput sel) := by
  induction sel generalizing g with
  | nil => exact mapInputs_templateInput_nil.symm
  | cons b sel ih =>
    rw [List.map_cons, List.nodup_cons] at htargets
    have hwrite := write_eq_mapInputs hids (hhas b List.mem_cons_self)
    rw [List.foldl_cons, ih (by rw [ids_write]; exact hids) htargets.2
      (fun b' hb' => hasInput_write (hhas b' (List.mem_cons_of_mem _ hb')) b), hwrite, mapInputs_mapInputs]
    simp only [templateInput_cons htargets.1]

end Graph

end NodeFlow
