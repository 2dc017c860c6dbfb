import NodeFlow.Graph.SlotTypes
import NodeFlow.Proofs.Mapping.Template
/-!
# The editor's two questions are one relation

`Graph.validTargets` lists the inputs of other nodes that an output could
feed, and `Graph.validSources` the outputs of other nodes that could feed an
input. They find the producer's type in different ways: the targets look the
output up by its position (the node's own outputs, else the schema's), the
sources run through the outputs a node lists (its own, else its class's). And
only the targets leave out the inputs that hold a literal.

Within the outputs a node lists the two lookups agree
(`outputSlotType_of_getElem?`), so on a graph with distinct node ids, for an
output of one node and a connected or open input of another, the input is
among the targets of the output exactly when the output is among the sources
of the input, each reported with the type its own side gives
(`validTargets_iff_validSources`).
-/

namespace NodeFlow

/-- Whether an input holds a literal rather than a connection or an open slot. -/
def InputValue.isLiteral : InputValue → Bool
  | .literal _ => true
  | _ => false

namespace Graph

variable {g : Graph} {schema : Schema}

/-- The entries of a target list: an input of another node that holds no
literal and whose type the produced one may feed. -/
theorem mem_targetsOf {src : String} {produced : Option String} {r : SlotRef} :
    r ∈ g.targetsOf schema src produced ↔ ∃ n ∈ g.nodes, n.id ≠ src ∧ ∃ p ∈ n.inputs,
      p.2.isLiteral = false ∧ typesMatch produced (inputSlotType schema n p.1) = true ∧
      r = { node := n.id, type := inputSlotType schema n p.1, input := some p.1 } := by
  unfold targetsOf
  simp only [List.mem_flatMap]
  refine exists_congr fun n => and_congr_right fun _ => ?_
  by_cases hn : n.id = src
  · simp [hn]
  · simp only [hn, beq_iff_eq, if_false, ne_eq, not_false_eq_true, true_and, List.mem_filterMap]
    refine exists_congr fun p => and_congr_right fun _ => ?_
    obtain ⟨name, v⟩ := p
    by_cases hm : typesMatch produced (inputSlotType schema n name) = true
    · cases v <;> simp [InputValue.isLiteral, hm, Eq.comm (a := r)]
    · cases v <;> simp [InputValue.isLiteral, hm]

/-- The entries of a source list: an output that another node lists, at its
position, whose type may feed the consumed one. -/
theorem mem_sourcesOf {tgt : String} {consumed : Option String} {r : SlotRef} :
    r ∈ g.sourcesOf schema tgt consumed ↔ ∃ n ∈ g.nodes, n.id ≠ tgt ∧ ∃ (k : Nat) (o : OutputDecl),
      (nodeOutputs schema n)[k]? = some o ∧ typesMatch (some o.type) consumed = true ∧
      r = { node := n.id, type := some o.type, output := some k } := by
  unfold sourcesOf
  simp only [List.mem_flatMap]
  refine exists_congr fun n => and_congr_right fun _ => ?_
  by_cases hn : n.id = tgt
  · simp [hn]
  · simp only [hn, beq_iff_eq, if_false, ne_eq, not_false_eq_true, true_and, List.mem_filterMap,
      List.mem_zipIdx_iff_getElem?]
    constructor
    · rintro ⟨⟨o, k⟩, ho, h⟩
      by_cases hm : typesMatch (some o.type) consumed = true
      · simp only [hm, if_true, Option.some.injEq] at h
        exact ⟨k, o, ho, hm, h.symm⟩
      · simp [hm] at h
    · rintro ⟨k, o, ho, hm, rfl⟩
      exact ⟨(o, k), ho, by simp [hm]⟩

/-- **Within the outputs a node lists, the lookup by position finds the one
listed there**, whether the node carries its outputs or its class declares
them. -/
theorem outputSlotType_of_getElem? {n : Node} {k : Nat} {o : OutputDecl} (h : (nodeOutputs schema n)[k]? = some o) :
    outputSlotType schema n k = some o.type := by
  have hk : (0 : Int) ≤ k := Int.natCast_nonneg k
  unfold nodeOutputs at h
  unfold outputSlotType
  rw [if_pos hk, Int.toNat_natCast]
  split at h
  · -- no outputs of its own: both read the class's
    rename_i hempty
    rw [List.isEmpty_iff.1 hempty, List.getElem?_nil]
    cases ht : schema.find? n.classType with
    | none => simp [ht] at h
    | some t =>
      simp only [ht, Option.map_some, Option.getD_some] at h
      simp [Schema.outputType?, ht, hk, h]
  · rw [h]

theorem validTargets_of_get? {src : Node} (hsrc : g.get? src.id = some src) (k : Int) :
    g.validTargets schema src.id k = g.targetsOf schema src.id (outputSlotType schema src k) := by
  rw [validTargets, hsrc]

theorem validSources_of_get? {tgt : Node} (htgt : g.get? tgt.id = some tgt) (name : String) :
    g.validSources schema tgt.id name = g.sourcesOf schema tgt.id (inputSlotType schema tgt name) := by
  rw [validSources, htgt]

/-- A target entry naming node `b` and input `i` is typed as `b` types `i`,
which the produced type may feed. -/
theorem target_named (hids : (g.nodes.map (·.id)).Nodup) {b : Node} (hb : b ∈ g.nodes) {src : String}
    {produced : Option String} {r : SlotRef} (hr : r ∈ g.targetsOf schema src produced) (hnode : r.node = b.id)
    {i : String} (hin : r.input = some i) :
    typesMatch produced (inputSlotType schema b i) = true ∧ r.type = inputSlotType schema b i := by
  obtain ⟨n, hn, -, p, -, -, hm, rfl⟩ := mem_targetsOf.1 hr
  have hnb : n = b := List.inj_on_of_nodup_map hids hn hb hnode
  have hpi : p.1 = i := Option.some_inj.1 hin
  subst hnb hpi
  exact ⟨hm, rfl⟩

theorem mem_targetsOf_of_input {b : Node} (hb : b ∈ g.nodes) {src : String} (hsrc : b.id ≠ src)
    {produced : Option String} {i : String} {v : InputValue} (hv : (i, v) ∈ b.inputs) (hlink : v.isLiteral = false)
    (hm : typesMatch produced (inputSlotType schema b i) = true) :
    { node := b.id, type := inputSlotType schema b i, input := some i } ∈ g.targetsOf schema src produced :=
  mem_targetsOf.2 ⟨b, hb, hsrc, (i, v), hv, hlink, hm, rfl⟩

/-- A source entry naming node `a` and a position `k` that `a` lists is
typed as the output there, whose type may feed the consumed one. -/
theorem source_named (hids : (g.nodes.map (·.id)).Nodup) {a : Node} (ha : a ∈ g.nodes) {tgt : String}
    {consumed : Option String} {r : SlotRef} (hr : r ∈ g.sourcesOf schema tgt consumed) (hnode : r.node = a.id)
    {k : Nat} (hk : k < (nodeOutputs schema a).length) (hout : r.output = some (k : Int)) :
    typesMatch (some (nodeOutputs schema a)[k].type) consumed = true ∧ r.type = some (nodeOutputs schema a)[k].type := by
  obtain ⟨n, hn, -, k', o, hk', hm, rfl⟩ := mem_sourcesOf.1 hr
  have hna : n = a := List.inj_on_of_nodup_map hids hn ha hnode
  have hkk : k' = k := Int.ofNat_inj.1 (Option.some_inj.1 hout)
  subst hna hkk
  have ho : o = (nodeOutputs schema n)[k'] := Option.some_inj.1 (hk'.symm.trans (List.getElem?_eq_getElem hk))
  subst ho
  exact ⟨hm, rfl⟩

theorem mem_sourcesOf_of_output {a : Node} (ha : a ∈ g.nodes) {tgt : String} (htgt : a.id ≠ tgt)
    {consumed : Option String} {k : Nat} {o : OutputDecl} (ho : (nodeOutputs schema a)[k]? = some o)
    (hm : typesMatch (some o.type) consumed = true) :
    { node := a.id, type := some o.type, output := some (k : Int) } ∈ g.sourcesOf schema tgt consumed :=
  mem_sourcesOf.2 ⟨a, ha, htgt, k, o, ho, hm, rfl⟩

/-- **Targets and sources are two views of one relation.** On a graph with
distinct node ids, take an output `k` that node `a` lists and an input `i` of
another node `b` that holds a connection or an open slot. Then `(b, i)` is
among the targets of `a`'s output `k` exactly when `(a, k)` is among the
sources of `b`'s input `i`; the targets report the input's type, and the
sources the output's. -/
theorem validTargets_iff_validSources (hids : (g.nodes.map (·.id)).Nodup) {a b : Node} (ha : a ∈ g.nodes)
    (hb : b ∈ g.nodes) (hab : a ≠ b) {k : Nat} (hk : k < (nodeOutputs schema a).length) {i : String}
    {v : InputValue} (hv : (i, v) ∈ b.inputs) (hlink : v.isLiteral = false) :
    ((∃ r ∈ g.validTargets schema a.id k, r.node = b.id ∧ r.input = some i) ↔
      ∃ r ∈ g.validSources schema b.id i, r.node = a.id ∧ r.output = some (k : Int)) ∧
    (∀ r ∈ g.validTargets schema a.id k, r.node = b.id → r.input = some i → r.type = inputSlotType schema b i) ∧
    (∀ r ∈ g.validSources schema b.id i, r.node = a.id → r.output = some (k : Int) →
      r.type = some (nodeOutputs schema a)[k].type) := by
  have hne : a.id ≠ b.id := fun h => hab (List.inj_on_of_nodup_map hids ha hb h)
  have ho : (nodeOutputs schema a)[k]? = some (nodeOutputs schema a)[k] := List.getElem?_eq_getElem hk
  rw [validTargets_of_get? (get?_of_nodup hids ha), outputSlotType_of_getElem? ho,
    validSources_of_get? (get?_of_nodup hids hb)]
  -- each side holds exactly when the output's type may feed the input's
  have htargets : (∃ r ∈ g.targetsOf schema a.id (some (nodeOutputs schema a)[k].type), r.node = b.id ∧
      r.input = some i) ↔ typesMatch (some (nodeOutputs schema a)[k].type) (inputSlotType schema b i) = true :=
    ⟨fun ⟨_, hr, hn, hi⟩ => (target_named hids hb hr hn hi).1,
      fun hm => ⟨_, mem_targetsOf_of_input hb (Ne.symm hne) hv hlink hm, rfl, rfl⟩⟩
  have hsources : (∃ r ∈ g.sourcesOf schema b.id (inputSlotType schema b i), r.node = a.id ∧
      r.output = some (k : Int)) ↔
        typesMatch (some (nodeOutputs schema a)[k].type) (inputSlotType schema b i) = true :=
    ⟨fun ⟨_, hr, hn, hout⟩ => (source_named hids ha hr hn hk hout).1,
      fun hm => ⟨_, mem_sourcesOf_of_output ha hne ho hm, rfl, rfl⟩⟩
  exact ⟨htargets.trans hsources.symm, fun r hr hn hi => (target_named hids hb hr hn hi).2,
    fun r hr hn hout => (source_named hids ha hr hn hk hout).2⟩

/-- A loader whose one output carries a model. -/
def modelLoader : Node :=
  { id := "1", classType := "CheckpointLoaderSimple", outputs := [⟨"MODEL", "MODEL"⟩] }

/-- A sampler whose model input is connected to the loader. -/
def modelSampler : Node :=
  { id := "2", classType := "KSampler", inputs := [("model", .connection "1" 0)] }

/-- The loader and the sampler it feeds. -/
def modelPairGraph : Graph := { nodes := [modelLoader, modelSampler] }

/-- The loader's model output and the sampler's model input, on a schema that
knows neither class. -/
theorem validTargets_iff_validSources_loader_sampler :
    (modelPairGraph.nodes.map (·.id)).Nodup ∧ modelLoader ∈ modelPairGraph.nodes ∧
      modelSampler ∈ modelPairGraph.nodes ∧ modelLoader ≠ modelSampler ∧
      0 < (nodeOutputs Schema.empty modelLoader).length ∧ ("model", .connection "1" 0) ∈ modelSampler.inputs ∧
      (InputValue.connection "1" 0).isLiteral = false ∧
      ((∃ r ∈ modelPairGraph.validTargets Schema.empty modelLoader.id 0,
          r.node = modelSampler.id ∧ r.input = some "model") ↔
        ∃ r ∈ modelPairGraph.validSources Schema.empty modelSampler.id "model",
          r.node = modelLoader.id ∧ r.output = some 0) ∧
      (∀ r ∈ modelPairGraph.validTargets Schema.empty modelLoader.id 0, r.node = modelSampler.id →
        r.input = some "model" → r.type = inputSlotType Schema.empty modelSampler "model") ∧
      (∀ r ∈ modelPairGraph.validSources Schema.empty modelSampler.id "model", r.node = modelLoader.id →
        r.output = some 0 → r.type = some (nodeOutputs Schema.empty modelLoader)[0].type) := by
  have hids : (modelPairGraph.nodes.map (·.id)).Nodup := by decide
  have hloader : modelLoader ∈ modelPairGraph.nodes := List.mem_cons_self
  have hsampler : modelSampler ∈ modelPairGraph.nodes := List.mem_cons_of_mem _ List.mem_cons_self
  have hne : modelLoader ≠ modelSampler := fun h => absurd (congrArg Node.id h) (by decide)
  have hk : 0 < (nodeOutputs Schema.empty modelLoader).length := by decide
  have hv : ("model", InputValue.connection "1" 0) ∈ modelSampler.inputs := List.mem_cons_self
  exact ⟨hids, hloader, hsampler, hne, hk, hv, rfl,
    validTargets_iff_validSources hids hloader hsampler hne hk hv rfl⟩

end Graph

end NodeFlow
