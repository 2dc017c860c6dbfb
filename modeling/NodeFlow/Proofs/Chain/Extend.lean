import NodeFlow.Proofs.Chain.Inject
/-!
# Extending the chain of one noise path

`Graph.extendChainBy?` scans the sampling nodes in node order for the first
whose model input reads a modifier of the graph and that the classifier puts on
the requested path (`SamplesOn`). With none, there is nothing to do. With one,
the chain goes after that modifier, as an injected chain goes after the model
source, and only that sampling node's model input changes: it reads the
chain's end (`extendChainBy_exact`).

The classifier the program ships is the start step rule. It looks at the
samplers of its class whose model input reads the sampling node: one that
starts at step zero puts the node on the high-noise path, any other on the
low-noise path (`classify_paths`). A start step counts as zero when it is a
literal equal to zero (`ZeroStart`); a missing one is read as `-1`.
-/

namespace NodeFlow

open Json

/-! ## Searches that never fail -/

section Search

variable {α β ε : Type}

/-- A filter-map whose every step succeeds is the plain filter-map of the
results. -/
theorem filterMapM_except_pure {f : α → Except ε (Option β)} {p : α → Option β} :
    ∀ {l : List α}, (∀ a ∈ l, f a = .ok (p a)) → l.filterMapM f = .ok (l.filterMap p)
  | [], _ => rfl
  | a :: l, h => by
    rw [List.filterMapM_cons, h a List.mem_cons_self]
    simp only [bind, Except.bind]
    rw [filterMapM_except_pure fun b hb => h b (List.mem_cons_of_mem a hb), List.filterMap_cons]
    cases p a <;> rfl

/-- A search passes over a prefix on which every step finds nothing. -/
theorem findSomeM?_except_skip {f : α → Except ε (Option β)} :
    ∀ {l₁ : List α} (l₂ : List α), (∀ a ∈ l₁, f a = .ok none) → (l₁ ++ l₂).findSomeM? f = l₂.findSomeM? f
  | [], _, _ => rfl
  | a :: l₁, l₂, h => by
    rw [List.cons_append, List.findSomeM?_cons, h a List.mem_cons_self]
    exact findSomeM?_except_skip l₂ fun b hb => h b (List.mem_cons_of_mem a hb)

/-- A search whose every step finds nothing finds nothing. -/
theorem findSomeM?_except_none {f : α → Except ε (Option β)} {l : List α}
    (h : ∀ a ∈ l, f a = .ok none) : l.findSomeM? f = .ok none := by
  rw [← List.append_nil l, findSomeM?_except_skip [] h]
  rfl

end Search

namespace NoisePathRule

/-- A start step equal to zero: the integer `0`, `false` (a boolean is an
integer to the program) or a double equal to `0`. -/
def ZeroStart (v : Value) : Prop :=
  v = .int 0 ∨ v = .bool false ∨ ∃ x, v = .float x ∧ x.numEq Binary64.zero = true

theorem startsAtZero_iff (v : Value) : startsAtZero v = true ↔ ZeroStart v := by
  cases v with
  | int n => simp [startsAtZero, ZeroStart]
  | bool b => cases b <;> simp [startsAtZero, ZeroStart]
  | float x => simp [startsAtZero, ZeroStart]
  | null | str _ | arr _ | obj _ => simp [startsAtZero, ZeroStart]

/-- A missing start step is read as `-1`, which is no zero: the start step
counts as zero exactly when there is a literal one equal to zero. -/
theorem startsAtZero_getD_iff (n : Node) (inp : String) :
    startsAtZero ((n.literal? inp).getD (.int (-1))) = true ↔ ∃ v, n.literal? inp = some v ∧ ZeroStart v := by
  cases n.literal? inp with
  | none => simp [startsAtZero]
  | some v => simp [startsAtZero_iff]

/-- The path a sampler gives the sampling node `id`: none unless its model
input reads `id`, high when it starts at step zero and low otherwise. -/
def samplerPath (inp id : String) (n : Node) : Option NoisePath :=
  match Inputs.get? n.inputs "model" with
  | some (.connection src _) =>
    if src = id then some (if startsAtZero ((n.literal? inp).getD (.int (-1))) then .high else .low) else none
  | _ => none

/-- A node that reads its model from output `i` of node `id`, for some `i`. -/
def ReadsModel (n : Node) (id : String) : Prop := ∃ i, Inputs.get? n.inputs "model" = some (.connection id i)

theorem samplerPath_eq_some {inp id : String} {n : Node} {p : NoisePath} :
    samplerPath inp id n = some p ↔
      ReadsModel n id ∧ (startsAtZero ((n.literal? inp).getD (.int (-1))) = true ↔ p = .high) := by
  unfold samplerPath ReadsModel
  split
  · rename_i src i hget
    rw [hget]
    by_cases hsrc : src = id
    · subst hsrc
      cases hz : startsAtZero ((n.literal? inp).getD (.int (-1))) <;> cases p <;> simp
    · simp [hsrc]
  · rename_i hget
    constructor
    · intro h
      cases h
    · rintro ⟨⟨i, hi⟩, -⟩
      exact (hget _ _ hi).elim

/-- The paths the start step rule gives node `id`, with its sampler class and
start input given as text: high first, each once. -/
def startPaths (ct inp : String) (g : Graph) (id : String) : List NoisePath :=
  let ps := (g.nodesOfType ct).filterMap (samplerPath inp id)
  (if ps.contains .high then [NoisePath.high] else []) ++ (if ps.contains .low then [NoisePath.low] else [])

/-- **The start step rule, computed**: with a sampler class and a start input
given as text, classifying never fails. -/
theorem classify_str (ct inp : String) (g : Graph) (id : String) :
    (⟨.str ct, .str inp⟩ : NoisePathRule).classify g id = .ok (startPaths ct inp g id) := by
  unfold classify
  dsimp only
  -- each sampler's step succeeds with the path `samplerPath` gives
  rw [filterMapM_except_pure (p := samplerPath inp id) fun n _ => ?_]
  · rfl
  · -- both matches read the same input, so fixing it reduces both
    unfold samplerPath
    cases hget : Inputs.get? n.inputs "model" with
    | none => simp [pure, Except.pure]
    | some v =>
      cases v with
      | connection src i =>
        by_cases hsrc : src = id
        · simp [hsrc, Node.literalAt, pure, Except.pure, bind, Except.bind]
        · simp [hsrc, pure, Except.pure]
      | literal _ | unconnected _ => simp [pure, Except.pure]

theorem mem_classify_iff {ct inp : String} {g : Graph} {id : String} {ps : List NoisePath}
    (h : (⟨.str ct, .str inp⟩ : NoisePathRule).classify g id = .ok ps) (p : NoisePath) :
    p ∈ ps ↔ ∃ n ∈ g.nodes, n.classType = ct ∧ ReadsModel n id ∧
      (startsAtZero ((n.literal? inp).getD (.int (-1))) = true ↔ p = .high) := by
  rw [classify_str] at h
  cases h
  unfold startPaths
  have hmem : ∀ q, q ∈ (g.nodesOfType ct).filterMap (samplerPath inp id) ↔
      ∃ n ∈ g.nodes, n.classType = ct ∧ ReadsModel n id ∧
        (startsAtZero ((n.literal? inp).getD (.int (-1))) = true ↔ q = .high) := by
    intro q
    simp only [List.mem_filterMap, Graph.nodesOfType, List.mem_filter, beq_iff_eq, samplerPath_eq_some, and_assoc]
  -- the rule lists a path exactly when some sampler gives it
  have hlisted : ∀ (q : NoisePath) (l : List NoisePath),
      q ∈ (if l.contains .high then [NoisePath.high] else []) ++ (if l.contains .low then [NoisePath.low] else []) ↔
        q ∈ l := by
    intro q l
    cases q <;> by_cases hh : NoisePath.high ∈ l <;> by_cases hl : NoisePath.low ∈ l <;> simp [hh, hl]
  rw [hlisted, hmem]

/-- **The start step rule's paths.** Classifying with a sampler class `ct`
and a start input `inp` given as text never fails. A node is on the
high-noise path exactly when some sampler of class `ct` reads its model from
the node and has a literal start step equal to zero, and on the low-noise
path exactly when some such sampler has none. -/
theorem classify_paths (ct inp : String) (g : Graph) (id : String) :
    ∃ ps, (⟨.str ct, .str inp⟩ : NoisePathRule).classify g id = .ok ps ∧
      (NoisePath.high ∈ ps ↔ ∃ n ∈ g.nodes, n.classType = ct ∧ ReadsModel n id ∧
        ∃ v, n.literal? inp = some v ∧ ZeroStart v) ∧
      (NoisePath.low ∈ ps ↔ ∃ n ∈ g.nodes, n.classType = ct ∧ ReadsModel n id ∧
        ¬∃ v, n.literal? inp = some v ∧ ZeroStart v) := by
  obtain ⟨ps, hps⟩ : ∃ ps, (⟨.str ct, .str inp⟩ : NoisePathRule).classify g id = .ok ps :=
    ⟨_, classify_str ct inp g id⟩
  refine ⟨ps, hps, ?_, ?_⟩
  · rw [mem_classify_iff hps]
    simp only [iff_true, startsAtZero_getD_iff]
  · rw [mem_classify_iff hps]
    simp only [reduceCtorEq, iff_false, startsAtZero_getD_iff]

end NoisePathRule

/-- Extending with the start step rule, its class and start input given as
text, is extending with the classifier `startPaths`, which always answers. -/
theorem Graph.extendChain_str (s : Settings) (g : Graph) (c : Chain) (path : NoisePath) (ct inp : String) :
    g.extendChain? s c path ⟨.str ct, .str inp⟩ =
      g.extendChainBy? s c path (fun g i => .ok (NoisePathRule.startPaths ct inp g i)) := by
  unfold extendChain?
  congr 1
  funext g i
  exact NoisePathRule.classify_str ct inp g i

/-- The node with its model input reading output 0 of `last`, in place. -/
def Node.readModelFrom (last : String) (x : Node) : Node :=
  { x with inputs := x.inputs.map fun p => if p.1 == "model" then ("model", .connection last 0) else p }

namespace Graph

variable {g : Graph} {s : Settings}

/-- Node `x` is a sampling node whose model input reads the modifier `m` of the
graph, and the classifier puts it on `path`. -/
def SamplesOn (s : Settings) (g : Graph) (cls : Graph → String → List NoisePath) (path : NoisePath)
    (x m : Node) : Prop :=
  x.classType = s.samplingClassType ∧ NoisePathRule.ReadsModel x m.id ∧ g.get? m.id = some m ∧
    m.classType = s.modifierClassType ∧ path ∈ cls g x.id

section Classifier

variable {cls : Graph → String → List NoisePath} {path : NoisePath} {x : Node}

theorem samplingTarget_of_samplesOn {m : Node} (h : SamplesOn s g cls path x m) :
    g.samplingTarget s path (fun g i => .ok (cls g i)) x = .ok (some (x.id, m.id)) := by
  obtain ⟨-, ⟨i, hmodel⟩, hm, hclass, hpath⟩ := h
  unfold samplingTarget
  rw [hmodel]
  simp [hm, hclass, hpath, pure, Except.pure, bind, Except.bind]

theorem samplingTarget_of_not_samplesOn (hclass : x.classType = s.samplingClassType)
    (h : ∀ m, ¬SamplesOn s g cls path x m) :
    g.samplingTarget s path (fun g i => .ok (cls g i)) x = .ok none := by
  unfold samplingTarget
  split
  · rename_i src i hmodel
    cases hm : g.get? src with
    | none => rfl
    | some m =>
      -- the node read is `m` itself, so only its class or the path can fail
      have hid : m.id = src := (get?_eq_some hm).2
      subst hid
      have hno : ¬(m.classType = s.modifierClassType ∧ path ∈ cls g x.id) := fun hc =>
        h m ⟨hclass, ⟨i, hmodel⟩, hm, hc.1, hc.2⟩
      by_cases hc : m.classType = s.modifierClassType
      · have hp : path ∉ cls g x.id := fun hp => hno ⟨hc, hp⟩
        simp [hc, hp, pure, Except.pure, bind, Except.bind]
      · simp [hc, pure, Except.pure]
  · rfl

/-- The search finds nothing when no node samples on the path. -/
theorem findSomeM?_samplingTarget_none (h : ∀ x ∈ g.nodes, ∀ m, ¬SamplesOn s g cls path x m) :
    (g.nodesOfType s.samplingClassType).findSomeM? (g.samplingTarget s path fun g i => .ok (cls g i)) =
      .ok none := by
  refine findSomeM?_except_none fun x hx => ?_
  obtain ⟨hx, hclass⟩ := List.mem_filter.1 hx
  exact samplingTarget_of_not_samplesOn (beq_iff_eq.1 hclass) (h x hx)

/-- The search finds the first node that samples on the path, with its
modifier. -/
theorem findSomeM?_samplingTarget_first {pre post : List Node} {m : Node} (hnodes : g.nodes = pre ++ x :: post)
    (hpre : ∀ y ∈ pre, ∀ m', ¬SamplesOn s g cls path y m') (hx : SamplesOn s g cls path x m) :
    (g.nodesOfType s.samplingClassType).findSomeM? (g.samplingTarget s path fun g i => .ok (cls g i)) =
      .ok (some (x.id, m.id)) := by
  have hclass : (x.classType == s.samplingClassType) = true := beq_iff_eq.2 hx.1
  unfold nodesOfType
  rw [hnodes, List.filter_append, List.filter_cons_of_pos (p := fun y : Node => y.classType == s.samplingClassType) hclass]
  rw [findSomeM?_except_skip _ fun y hy => ?_]
  · rw [List.findSomeM?_cons, samplingTarget_of_samplesOn hx]
    rfl
  · obtain ⟨hy, hyclass⟩ := List.mem_filter.1 hy
    exact samplingTarget_of_not_samplesOn (beq_iff_eq.1 hyclass) (hpre y hy)

end Classifier

/-- Past its guards, extending appends the chain after the modifier the search
found and points the sampling node found at the chain's end. -/
theorem extendChainBy_of_target {c : Chain} {path : NoisePath} {classify : Graph → String → Outcome (List NoisePath)}
    {samplingId modifierId : String} (hc : c ≠ [])
    (h : (g.nodesOfType s.samplingClassType).findSomeM? (g.samplingTarget s path classify) =
      .ok (some (samplingId, modifierId))) :
    g.extendChainBy? s c path classify = (do
      let (g', last) ← appendChain s g c modifierId
      return some (g'.modify samplingId fun n => n.setInput "model" (.connection last 0))) := by
  unfold extendChainBy?
  rw [List.isEmpty_eq_false_iff.2 hc, h]
  rfl

/-- Setting the model input of the one node with an id, in a keyed graph
followed by nodes of fresh ids, points that node's model input at `last` in
place and changes nothing else. -/
theorem modify_setModel {x : Node} {extra : List Node} {last : String} (hk : g.Keyed) (hx : x ∈ g.nodes)
    (hmodel : Inputs.has x.inputs "model" = true) (hextra : ∀ y ∈ extra, g.contains y.id = false) :
    ({ g with nodes := g.nodes ++ extra } : Graph).modify x.id (fun n => n.setInput "model" (.connection last 0)) =
      { g with nodes := g.nodes.map (fun y => if y.id == x.id then y.readModelFrom last else y) ++ extra } := by
  unfold modify
  simp only [List.map_append]
  congr 2
  · refine List.map_congr_left fun y hy => ?_
    by_cases hid : y.id = x.id
    · -- in a keyed graph the node with that id is `x`
      obtain rfl := hk.eq_of_id hy hx hid
      simp only [beq_self_eq_true, if_true, Node.setInput, Node.readModelFrom, Inputs.set_of_has hmodel]
    · simp [hid]
  · -- the nodes after the graph's own have other ids
    have hkeep : ∀ y ∈ extra,
        (if y.id == x.id then y.setInput "model" (.connection last 0) else y) = y := by
      intro y hy
      have hne : (y.id == x.id) = false := by
        cases he : (y.id == x.id) with
        | false => rfl
        | true =>
          have hcont := hextra y hy
          rw [beq_iff_eq.1 he, contains_of_mem hx] at hcont
          cases hcont
      rw [hne]
      rfl
    exact (List.map_congr_left hkeep).trans (List.map_id' extra)

/-- **Extending a noise path's chain in a keyed graph, exactly.** With a floor
that is not negative, a next id `n`, new ids that can be written and a chain
that is not empty, for every classifier: when no node samples on the path there
is nothing to do; otherwise, for the first node `x` in node order that samples
on the path from its modifier `m`, the chain's ids `n, n + 1, …` name no node,
and the result is the graph's nodes with `x`'s model input reading output 0 of
the chain's last node, in place, followed by the chain's nodes, each a modifier
fed by output 0 of the one before it, the first by `m`. The start step rule,
with a sampler class and a start input given as text, is such a classifier:
it never fails, puts a node on the high-noise path exactly when a sampler of
its class reads the node's model and has a literal start step equal to zero,
and on the low-noise path exactly when such a sampler has none. -/
theorem extendChainBy_exact {c : Chain} {n : Int} (hk : g.Keyed) (hfloor : 0 ≤ s.injectedIdFloor)
    (hn : g.nextId s.injectedIdFloor = .ok n) (hwrite : n + c.length ≤ 10 ^ Decimal.maxIntegerDigits)
    (hc : c ≠ []) (path : NoisePath) :
    (∀ cls : Graph → String → List NoisePath,
      ((∀ x ∈ g.nodes, ∀ m, ¬SamplesOn s g cls path x m) →
          g.extendChainBy? s c path (fun g i => .ok (cls g i)) = .ok none) ∧
      ∀ pre x post m, g.nodes = pre ++ x :: post → (∀ y ∈ pre, ∀ m', ¬SamplesOn s g cls path y m') →
        SamplesOn s g cls path x m →
        (∀ id ∈ freshIds n c.length, g.contains id = false) ∧
        g.extendChainBy? s c path (fun g i => .ok (cls g i)) = .ok (some { g with
          nodes := g.nodes.map (fun y => if y.id == x.id then y.readModelFrom ((freshIds n c.length).getLastD m.id)
              else y) ++ chainNodes s m.id ((freshIds n c.length).zip c) })) ∧
    ∀ (ct inp : String) (h : Graph) (id : String),
      ∃ ps, (⟨.str ct, .str inp⟩ : NoisePathRule).classify h id = .ok ps ∧
        (NoisePath.high ∈ ps ↔ ∃ y ∈ h.nodes, y.classType = ct ∧ NoisePathRule.ReadsModel y id ∧
          ∃ v, y.literal? inp = some v ∧ NoisePathRule.ZeroStart v) ∧
        (NoisePath.low ∈ ps ↔ ∃ y ∈ h.nodes, y.classType = ct ∧ NoisePathRule.ReadsModel y id ∧
          ¬∃ v, y.literal? inp = some v ∧ NoisePathRule.ZeroStart v) := by
  have hne : c.isEmpty = false := List.isEmpty_eq_false_iff.2 hc
  refine ⟨fun cls => ⟨fun hnone => ?_, fun pre x post m hnodes hpre hx => ?_⟩, NoisePathRule.classify_paths⟩
  · -- no sampling node qualifies: the search comes back empty
    unfold extendChainBy?
    rw [hne, findSomeM?_samplingTarget_none hnone]
    rfl
  · refine ⟨freshIds_fresh hfloor hn, ?_⟩
    have hxmem : x ∈ g.nodes := by rw [hnodes]; exact List.mem_append_right pre List.mem_cons_self
    obtain ⟨i, hmodel⟩ := hx.2.1
    have hhas : Inputs.has x.inputs "model" = true := by
      unfold Inputs.get? at hmodel
      obtain ⟨p, hp, -⟩ := Option.map_eq_some_iff.1 hmodel
      have hp1 : (p.1 == "model") = true := List.find?_some (p := fun q : String × InputValue => q.1 == "model") hp
      exact beq_iff_eq.1 hp1 ▸ Inputs.has_of_mem (List.mem_of_find?_eq_some hp)
    -- the chain's nodes take fresh ids, so only `x` itself is changed
    have hextra : ∀ y ∈ chainNodes s m.id ((freshIds n c.length).zip c), g.contains y.id = false := by
      intro y hy
      have hin := mem_chainNodes_id hy
      rw [List.map_fst_zip (by simp)] at hin
      exact freshIds_fresh hfloor hn y.id hin
    rw [extendChainBy_of_target hc (findSomeM?_samplingTarget_first hnodes hpre hx),
      appendChain_exact hfloor hn hwrite]
    simp only [bind, Except.bind, pure, Except.pure]
    rw [modify_setModel hk hxmem hhas hextra]

/-- A high-noise sampling pattern: a loader read by a modifier, read by a
sampling node, read by an advanced sampler that starts at step 0. -/
def samplingGraph : Graph :=
  { nodes := [{ id := "1", classType := "UNETLoader" },
    { id := "2", classType := "LoraLoaderModelOnly", inputs := [("model", .connection "1" 0)] },
    { id := "3", classType := "ModelSamplingSD3", inputs := [("model", .connection "2" 0)] },
    { id := "4", classType := "KSamplerAdvanced",
      inputs := [("model", .connection "3" 0), ("start_at_step", .literal (.int 0))] }] }

/-- A one-modifier chain extends the high-noise path of `samplingGraph` after
its modifier, as the node `100`. -/
theorem extendChainBy_exact_sampling_graph :
    samplingGraph.Keyed ∧ (0 : Int) ≤ ({} : Settings).injectedIdFloor ∧
      samplingGraph.nextId ({} : Settings).injectedIdFloor = .ok 100 ∧
      (100 : Int) + [(⟨.str "detail", Binary64.one⟩ : Selection)].length ≤ 10 ^ Decimal.maxIntegerDigits ∧
      [(⟨.str "detail", Binary64.one⟩ : Selection)] ≠ [] ∧
      ((∀ cls : Graph → String → List NoisePath,
        ((∀ x ∈ samplingGraph.nodes, ∀ m, ¬SamplesOn {} samplingGraph cls .high x m) →
            samplingGraph.extendChainBy? {} [⟨.str "detail", Binary64.one⟩] .high (fun g i => .ok (cls g i)) =
              .ok none) ∧
        ∀ pre x post m, samplingGraph.nodes = pre ++ x :: post →
          (∀ y ∈ pre, ∀ m', ¬SamplesOn {} samplingGraph cls .high y m') → SamplesOn {} samplingGraph cls .high x m →
          (∀ id ∈ freshIds 100 [(⟨.str "detail", Binary64.one⟩ : Selection)].length,
            samplingGraph.contains id = false) ∧
          samplingGraph.extendChainBy? {} [⟨.str "detail", Binary64.one⟩] .high (fun g i => .ok (cls g i)) =
            .ok (some { samplingGraph with
              nodes := samplingGraph.nodes.map (fun y => if y.id == x.id then
                  y.readModelFrom ((freshIds 100 [(⟨.str "detail", Binary64.one⟩ : Selection)].length).getLastD m.id)
                  else y) ++
                chainNodes {} m.id ((freshIds 100 [(⟨.str "detail", Binary64.one⟩ : Selection)].length).zip
                  [⟨.str "detail", Binary64.one⟩]) })) ∧
      ∀ (ct inp : String) (h : Graph) (id : String),
        ∃ ps, (⟨.str ct, .str inp⟩ : NoisePathRule).classify h id = .ok ps ∧
          (NoisePath.high ∈ ps ↔ ∃ y ∈ h.nodes, y.classType = ct ∧ NoisePathRule.ReadsModel y id ∧
            ∃ v, y.literal? inp = some v ∧ NoisePathRule.ZeroStart v) ∧
          (NoisePath.low ∈ ps ↔ ∃ y ∈ h.nodes, y.classType = ct ∧ NoisePathRule.ReadsModel y id ∧
            ¬∃ v, y.literal? inp = some v ∧ NoisePathRule.ZeroStart v)) := by
  have hk : samplingGraph.Keyed := ⟨by decide, by decide⟩
  have hn : samplingGraph.nextId (({} : Settings)).injectedIdFloor = .ok 100 := rfl
  have hw : (100 : Int) + [(⟨.str "detail", Binary64.one⟩ : Selection)].length ≤ 10 ^ Decimal.maxIntegerDigits := by
    have h3 : ((10 : Nat) : Int) ^ 3 ≤ ((10 : Nat) : Int) ^ Decimal.maxIntegerDigits := by
      rw [← Int.natCast_pow, ← Int.natCast_pow]
      exact Int.ofNat_le.2 (Nat.pow_le_pow_right (by decide) (by decide))
    exact Int.le_trans (by decide) h3
  have hc : [(⟨.str "detail", Binary64.one⟩ : Selection)] ≠ [] := List.cons_ne_nil _ _
  exact ⟨hk, by decide, hn, hw, hc, extendChainBy_exact hk (by decide) hn hw hc .high⟩

/-- `samplingGraph` next to a node whose id is the widest one read. -/
def widestSamplingGraph : Graph :=
  { nodes := samplingGraph.nodes ++ [{ id := widestId, classType := "PrimitiveNode" }] }

/-- With the default floor the next id of `widestSamplingGraph` is known, one
past its widest id, and its sampling node `3` is the first on the high-noise
path of the start step rule, reading the modifier `2`; yet a one-modifier chain
cannot be appended there, because the new id has one digit too many to be
written. -/
theorem extendChain_id_too_long :
    widestSamplingGraph.nextId 100 = .ok (10 ^ Decimal.maxIntegerDigits) ∧
      widestSamplingGraph.nodes = [] ++ samplingGraph.nodes ++ [{ id := widestId, classType := "PrimitiveNode" }] ∧
      SamplesOn {} widestSamplingGraph (NoisePathRule.startPaths "KSamplerAdvanced" "start_at_step") .high
        { id := "3", classType := "ModelSamplingSD3", inputs := [("model", .connection "2" 0)] }
        { id := "2", classType := "LoraLoaderModelOnly", inputs := [("model", .connection "1" 0)] } ∧
      widestSamplingGraph.extendChain? {} [⟨.str "a", Binary64.one⟩] .high (NoisePathRule.default {}) =
        .error .tooManyDigitsToWrite := by
  have hbig : 10 ^ 3 ≤ 10 ^ Decimal.maxIntegerDigits := Nat.pow_le_pow_right (by decide) (by decide)
  have hwide : (10 : Nat) ^ Decimal.maxIntegerDigits - 1 < 10 ^ Decimal.maxIntegerDigits := by omega
  -- the ids read are 1 to 4 and the widest one
  have hids : widestSamplingGraph.numericIds =
      .ok [1, 2, 3, 4, ((10 ^ Decimal.maxIntegerDigits - 1 : Nat) : Int)] :=
    numericIds_cons_toString (g := widestSamplingGraph) (j := 1) rfl (by omega) <|
      numericIds_cons_toString (j := 2) rfl (by omega) <| numericIds_cons_toString (j := 3) rfl (by omega) <|
        numericIds_cons_toString (j := 4) rfl (by omega) <| numericIds_cons_toString rfl hwide (numericIds_nil _)
  have hnext : widestSamplingGraph.nextId 100 = .ok (10 ^ Decimal.maxIntegerDigits) := by
    unfold nextId
    rw [hids]
    simp only [bind, Except.bind, pure, Except.pure, List.foldl_cons, List.foldl_nil, Except.ok.injEq]
    have hcast : ((10 ^ Decimal.maxIntegerDigits : Nat) : Int) = 10 ^ Decimal.maxIntegerDigits := by
      rw [Int.natCast_pow]
      rfl
    rw [← hcast]
    omega
  have hx : SamplesOn {} widestSamplingGraph (NoisePathRule.startPaths "KSamplerAdvanced" "start_at_step") .high
      { id := "3", classType := "ModelSamplingSD3", inputs := [("model", .connection "2" 0)] }
      { id := "2", classType := "LoraLoaderModelOnly", inputs := [("model", .connection "1" 0)] } :=
    ⟨rfl, ⟨0, rfl⟩, rfl, rfl, by decide⟩
  have hpre : ∀ y ∈ [({ id := "1", classType := "UNETLoader" } : Node),
      { id := "2", classType := "LoraLoaderModelOnly", inputs := [("model", .connection "1" 0)] }],
      ∀ m', ¬SamplesOn {} widestSamplingGraph (NoisePathRule.startPaths "KSamplerAdvanced" "start_at_step") .high y m' := by
    intro y hy m' hs
    have hclass := hs.1
    simp only [List.mem_cons, List.not_mem_nil, or_false] at hy
    rcases hy with rfl | rfl <;> simp at hclass
  refine ⟨hnext, rfl, hx, ?_⟩
  -- the search stops at the sampling node `3`; appending after its modifier fails
  have happ : appendChain {} widestSamplingGraph [⟨.str "a", Binary64.one⟩] "2" = .error .tooManyDigitsToWrite :=
    appendChain_too_long (n := 10 ^ Decimal.maxIntegerDigits) (by rw [Int.natCast_pow]; exact hnext)
      (Nat.le_refl _) (List.cons_ne_nil _ _)
  -- written out node by node, so that checking it never compares the widest id with another
  have hnodes : widestSamplingGraph.nodes =
      [{ id := "1", classType := "UNETLoader" },
        { id := "2", classType := "LoraLoaderModelOnly", inputs := [("model", .connection "1" 0)] }] ++
      { id := "3", classType := "ModelSamplingSD3", inputs := [("model", .connection "2" 0)] } ::
      [{ id := "4", classType := "KSamplerAdvanced",
          inputs := [("model", .connection "3" 0), ("start_at_step", .literal (.int 0))] },
        { id := widestId, classType := "PrimitiveNode" }] := by
    rw [show widestSamplingGraph.nodes = [{ id := "1", classType := "UNETLoader" },
        { id := "2", classType := "LoraLoaderModelOnly", inputs := [("model", .connection "1" 0)] },
        { id := "3", classType := "ModelSamplingSD3", inputs := [("model", .connection "2" 0)] },
        { id := "4", classType := "KSamplerAdvanced",
          inputs := [("model", .connection "3" 0), ("start_at_step", .literal (.int 0))] },
        { id := widestId, classType := "PrimitiveNode" }] from rfl, List.cons_append, List.cons_append,
      List.nil_append]
  rw [show NoisePathRule.default {} = ⟨.str "KSamplerAdvanced", .str "start_at_step"⟩ from rfl, extendChain_str]
  rw [extendChainBy_of_target (List.cons_ne_nil _ _) (findSomeM?_samplingTarget_first hnodes hpre hx)]
  exact congrArg (· >>= _) happ

end Graph

end NodeFlow
