import Mathlib.Data.List.Induction
import NodeFlow.Proofs.Mapping.Session
/-!
# What a template writes

Writing a state's selections in turn is one map of inputs: each input takes
the literal of the last selection that names it, and keeps its place
(`Graph.foldl_write_eq_last`). Two fields may select one input (an encoder
that no conditioning edge places is a candidate of both prompts), and then
the later field in field order wins.

Every candidate an analysis finds names an input that a node of the graph
has, and selecting only moves positions, so a session never selects an input
the graph lacks and no selection is skipped. So on a graph with distinct node
ids, the template of any state a session reaches is the graph with exactly the
selected inputs replaced, each by the placeholder of the last field that
selects it (`template_writes_last_selection`).
-/

namespace NodeFlow

open Json

namespace FieldMapping

/-- Whether the field selects input `name` of node `id`. -/
def selects (m : FieldMapping) (id name : String) : Bool :=
  m.chosen?.any fun c => c.nodeId == id && c.inputKey == name

end FieldMapping

namespace MappingState

/-- The last field, in field order, that selects input `name` of node `id`. -/
def lastSelecting (s : MappingState) (id name : String) : Option FieldMapping :=
  s.fields.reverse.find? (·.selects id name)

/-- Input `p` of node `id` in the template of a state: the placeholder literal
of the last field that selects it, if one does. -/
def templatedInput (s : MappingState) (id : String) (p : String × InputValue) : String × InputValue :=
  match s.lastSelecting id p.1 with
  | some m => (p.1, .literal (.str (Template.placeholderLiteral m.field.key)))
  | none => p

/-- The last selection of an input is the selection of the last field that
selects it. -/
theorem find?_selections_reverse (s : MappingState) (id name : String) :
    (s.selections.reverse.find? (·.2 == (id, name))).map (·.1) = (s.lastSelecting id name).map (·.field.key) := by
  have hany : ∀ m : FieldMapping,
      (m.chosen?.map fun c => (m.field.key, c.nodeId, c.inputKey)).any (·.2 == (id, name)) = m.selects id name := by
    intro m
    cases hc : m.chosen? with
    | none => simp [FieldMapping.selects, hc]
    | some c =>
      rw [Bool.eq_iff_iff]
      simp [FieldMapping.selects, hc]
  unfold selections lastSelecting
  rw [← List.filterMap_reverse, List.find?_filterMap]
  simp only [hany]
  cases hfind : s.fields.reverse.find? (·.selects id name) with
  | none => rfl
  | some m =>
    -- the field found selects a candidate, written under the field's key
    have hsel := List.find?_some hfind
    simp only [FieldMapping.selects] at hsel
    obtain ⟨c, hc, -⟩ := (Option.any_eq_true _ _).1 hsel
    simp [hc]

end MappingState

namespace Graph

variable {g : Graph}

theorem templateInput_fst (sel : Bindings) (id : String) (p : String × InputValue) :
    (templateInput sel id p).1 = p.1 := by
  unfold templateInput
  split <;> rfl

theorem templateInput_cons_eq (b : Value × String × String) (sel : Bindings) (id : String) (p : String × InputValue) :
    templateInput (b :: sel) id p = if b.2 = (id, p.1) then (p.1, fieldLiteral b.1) else templateInput sel id p := by
  by_cases ht : b.2 = (id, p.1) <;> simp [templateInput, ht]

/-- A write over an earlier template: the later selection wins its input. -/
theorem templateInput_over (b : Value × String × String) (sel : Bindings) (id : String) :
    templateInput [b] id ∘ templateInput sel id = templateInput (b :: sel) id := by
  funext p
  rw [Function.comp_apply, templateInput_cons_eq, templateInput_cons_eq, templateInput_fst]
  rfl

/-- **Writing selections in turn is one map of inputs**, in which each input
takes the literal of the last selection naming it, on a graph with distinct
node ids that has every selected input. -/
theorem foldl_write_eq_last (hids : (g.nodes.map (·.id)).Nodup) {sel : Bindings}
    (hhas : ∀ b ∈ sel, g.HasInput b.2) : sel.foldl write g = g.mapInputs (templateInput sel.reverse) := by
  -- induction from the end: the last write lands on the template of the ones before
  induction sel using List.reverseRecOn with
  | nil => exact mapInputs_templateInput_nil.symm
  | append_singleton sel b ih =>
    have hsel : ∀ b' ∈ sel, g.HasInput b'.2 := fun b' hb' => hhas b' (List.mem_append_left _ hb')
    have hb : (sel.foldl write g).HasInput b.2 := hasInput_foldl_write (hhas b (by simp)) sel
    have hids' : ((sel.foldl write g).nodes.map (·.id)).Nodup := by rw [ids_foldl_write]; exact hids
    rw [List.foldl_append, List.foldl_cons, List.foldl_nil, write_eq_mapInputs hids' hb, ih hsel,
      mapInputs_mapInputs, List.reverse_append, List.reverse_singleton, List.singleton_append]
    simp only [templateInput_over]

/-- A candidate the graph offers names an input one of its nodes has. -/
theorem Offers.hasInput {cand : Candidate} (h : g.Offers cand) : g.HasInput (cand.nodeId, cand.inputKey) := by
  obtain ⟨n, hn, key, hkey, rfl⟩ := h
  exact ⟨n, hn, rfl, hkey⟩

end Graph

namespace FieldMapping

theorem mem_candidates_of_chosen? {m : FieldMapping} {c : Candidate} (h : m.chosen? = some c) : c ∈ m.candidates := by
  unfold chosen? at h
  split at h
  · split at h
    · exact List.mem_of_getElem? h
    · cases h
  · cases h

end FieldMapping

namespace MappingState

variable {g : Graph} {c : Category} {schema : Schema} {s : MappingState}

/-- **Every candidate of a reachable state is offered by the graph**: selecting
moves positions only, and the analysis finds offered candidates. -/
theorem Reachable.offers (h : Reachable g c schema s) : ∀ m ∈ s.fields, ∀ cand ∈ m.candidates, g.Offers cand := by
  intro m hm cand hcand
  have hclear : m.clear ∈ (MappingState.analyze g c schema).fields.map FieldMapping.clear :=
    h.cleared ▸ List.mem_map_of_mem hm
  obtain ⟨m₀, hm₀, heq⟩ := List.mem_map.1 hclear
  -- clearing keeps the candidates
  have hcands : m₀.candidates = m.candidates := by
    have hc := congrArg FieldMapping.candidates heq
    simpa only [FieldMapping.clear] using hc
  exact Graph.analyze_offers hm₀ cand (hcands ▸ hcand)

theorem Reachable.hasInput_selections (h : Reachable g c schema s) : ∀ b ∈ s.selections, g.HasInput b.2 := by
  intro b hb
  obtain ⟨m, hm, cand, hcand, rfl⟩ := mem_selections.1 hb
  exact (h.offers m hm cand (FieldMapping.mem_candidates_of_chosen? hcand)).hasInput

/-- The selections written in turn give each input the literal of the last
field that selects it. -/
theorem templateInput_selections (s : MappingState) (id : String) :
    Graph.templateInput s.selections.reverse id = s.templatedInput id := by
  funext p
  have hlast := find?_selections_reverse s id p.1
  unfold Graph.templateInput templatedInput
  cases hf : s.selections.reverse.find? (·.2 == (id, p.1)) with
  | none =>
    rw [hf, Option.map_none] at hlast
    rw [Option.map_eq_none_iff.1 hlast.symm]
  | some b =>
    rw [hf, Option.map_some] at hlast
    obtain ⟨m, hm, hkey⟩ := Option.map_eq_some_iff.1 hlast.symm
    rw [hm]
    dsimp only
    rw [hkey]
    rfl

/-- **A template writes exactly the selected placeholders.** On a graph with
distinct node ids, every candidate of a state a session reaches names an input
that a node has, so no selection is skipped; and the template is the graph
with each selected input, in its place, replaced by the placeholder literal of
the last field that selects it, whatever it held before, and every other part
of the graph as it was. -/
theorem template_writes_last_selection (hids : (g.nodes.map (·.id)).Nodup) (h : Reachable g c schema s) :
    (∀ m ∈ s.fields, ∀ cand ∈ m.candidates, g.HasInput (cand.nodeId, cand.inputKey)) ∧
      g.template s =
        .ok { g with nodes := g.nodes.map fun n => { n with inputs := n.inputs.map (s.templatedInput n.id) } } := by
  refine ⟨fun m hm cand hcand => (h.offers m hm cand hcand).hasInput, ?_⟩
  rw [h.template_eq, Graph.foldl_write_eq_last hids h.hasInput_selections]
  simp only [Graph.mapInputs, templateInput_selections]

/-- A workflow of one prompt encoder and its text. -/
def loneEncoderGraph : Graph :=
  { nodes := [{ id := "1", classType := "CLIPTextEncode", inputs := [("text", .literal (.str "a cat"))] }] }

/-- The template of the text-to-image analysis of a lone encoder. -/
theorem template_writes_last_selection_lone_encoder :
    (loneEncoderGraph.nodes.map (·.id)).Nodup ∧
      Reachable loneEncoderGraph .textToImage Schema.empty (analyze loneEncoderGraph .textToImage Schema.empty) ∧
      (∀ m ∈ (analyze loneEncoderGraph .textToImage Schema.empty).fields, ∀ cand ∈ m.candidates,
        loneEncoderGraph.HasInput (cand.nodeId, cand.inputKey)) ∧
      loneEncoderGraph.template (analyze loneEncoderGraph .textToImage Schema.empty) =
        .ok { loneEncoderGraph with nodes := loneEncoderGraph.nodes.map fun n =>
          { n with inputs := n.inputs.map ((analyze loneEncoderGraph .textToImage Schema.empty).templatedInput n.id) } } :=
  have hids : (loneEncoderGraph.nodes.map (·.id)).Nodup := by decide
  ⟨hids, .analyze, template_writes_last_selection hids .analyze⟩

end MappingState

end NodeFlow
