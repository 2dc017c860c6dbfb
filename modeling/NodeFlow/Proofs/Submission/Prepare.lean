import NodeFlow.Proofs.Chain.Grow
import NodeFlow.Proofs.Bypass.Resolve
import NodeFlow.Submission.Compile
import NodeFlow.Proofs.Graph.Cycles
/-!
# What compiling a template guarantees

`Graph.compile` runs seven passes in order: filling, the seed, the overrides,
the modifier chain and the two noise-path chains grow the graph, and bypass
resolution last only leaves dangling the connections it was given
(`compile_ok`). So the compiled graph has no bypassed node, each of its
dangling connections is one the template had, and a template whose every
connection names a node compiles with no error about a missing node
(`compile_clean`).

The structural check reports a missing node only for a connection to a node
the graph lacks: its other messages read differently, by their first or last
character (`missingSourceError_not_mem`).
-/

namespace NodeFlow

open Json

namespace Graph

variable {g h : Graph}

/-- A pass that may decline keeps the graph it was given, else grows it. -/
theorem grows_getD {o : Option Graph} (ho : ∀ h, o = some h → g.Grows h) : g.Grows (o.getD g) := by
  cases o with
  | none => exact Grows.refl g
  | some h => exact ho h rfl

/-- Writing a seed, when there is one, grows a graph. -/
theorem grows_seeded (seed : Option Int) :
    g.Grows (match seed with
      | some n => g.reseed (.int n)
      | none => g) := by
  cases seed with
  | none => exact Grows.refl g
  | some n => exact reseed_grows (.int n)

/-- **Compiling runs the passes that grow the template, then resolves bypassed
nodes**, and reports the structural errors of the result. -/
theorem compile_ok {s : Settings} {schema : Schema} {r : Request} {rule : NoisePathRule}
    {randomSeed : Int} {strict : Bool} {c : Compiled}
    (hc : g.compile s schema r rule randomSeed strict = .ok c) :
    ∃ low, g.Grows low ∧ c.graph = (low.resolved s.bypassMaxDepth).graph ∧
      c.graph.structureErrors schema = .ok c.errors := by
  unfold compile at hc
  simp only [bind, Except.bind] at hc
  split at hc
  · cases hc
  rename_i filled hfill
  split at hc
  · cases hc
  rename_i overridden hover
  split at hc
  · cases hc
  rename_i injected hinject
  split at hc
  · cases hc
  rename_i high hhigh
  split at hc
  · cases hc
  rename_i low hlow
  -- each pass before resolution grows the graph it is given
  have hinjected : overridden.Grows (injected.getD overridden) := grows_getD fun h hh => by
    rw [hh] at hinject
    exact injectChain_grows hinject
  have hhighGrows : (injected.getD overridden).Grows (high.getD (injected.getD overridden)) :=
    grows_getD fun h hh => by
      rw [hh] at hhigh
      exact extendChain_grows hhigh
  have hlowGrows : (high.getD (injected.getD overridden)).Grows
      (low.getD (high.getD (injected.getD overridden))) := grows_getD fun h hh => by
    rw [hh] at hlow
    exact extendChain_grows hlow
  have hgrow := (fill_grows hfill).trans ((grows_seeded _).trans ((override_grows hover).trans
    (hinjected.trans (hhighGrows.trans hlowGrows))))
  split at hc
  · cases hc
  rename_i res hres
  split at hc
  · cases hc
  rename_i errors herrors
  split at hc
  · cases hc
  -- the compiled workflow is returned once its hash is taken
  split at hc
  · cases hc
  · cases hc
    exact ⟨_, hgrow, by rw [resolveBypass_eq_ok hres], herrors⟩

/-! ## The missing-node error -/

theorem missingSourceError_head (id input source : String) :
    (missingSourceError id input source).toList.head? = some 'N' := by
  simp [missingSourceError, String.toList_append]

theorem missingSourceError_last (id input source : String) :
    (missingSourceError id input source).toList.getLast? = some '\'' := by
  rw [missingSourceError, String.toList_append, List.getLast?_append,
    show "'".toList.getLast? = some '\'' from rfl]
  rfl

theorem invalidIndexError_last {id : String} {index : Int} {source : String} {count : Nat} {e : String}
    (h : invalidIndexError id index source count = .ok e) : e.toList.getLast? = some ')' := by
  unfold invalidIndexError at h
  obtain ⟨t, -, h⟩ := exists_of_bind_eq_ok h
  cases h
  rw [String.toList_append, List.getLast?_append, show " outputs)".toList.getLast? = some ')' from rfl]
  rfl

/-- **A closed graph has no missing-node error**: the check reports one only
for a connection to a node the graph lacks, and its other errors read
differently. -/
theorem missingSourceError_not_mem {schema : Schema} {errs : List String} (hc : g.Closed)
    (h : g.structureErrors schema = .ok errs) (id input source : String) :
    missingSourceError id input source ∉ errs := by
  intro hmem
  have hhead := missingSourceError_head id input source
  by_cases hne : g.nodes = []
  · rw [structureErrors_of_nil hne] at h
    cases h
    rw [List.mem_singleton] at hmem
    rw [hmem] at hhead
    exact absurd hhead (by decide)
  rw [structureErrors_of_ne_nil hne] at h
  obtain ⟨linkErrors, hlinks, h⟩ := exists_of_bind_eq_ok h
  cases h
  rcases List.mem_append.1 hmem with hconn | hcycle
  · obtain ⟨es, hes, he⟩ := List.mem_flatten.1 hconn
    obtain ⟨n, hn, hnes⟩ := exists_preimage_of_mapM_ok hlinks hes
    obtain ⟨⟨inp, src, idx⟩, hcn, hce⟩ := mem_connectionErrors hnes he
    rcases connectionError_some hce with ⟨hget, -⟩ | ⟨s, -, hs⟩
    · -- the source is a node of the closed graph, so the lookup finds it
      obtain ⟨m, hm, hmid⟩ := contains_iff.1 (hc n.id inp src idx ⟨n, hn, rfl, hcn⟩)
      rw [Graph.get?, List.find?_eq_none] at hget
      exact hget m hm (by simp [hmid])
    · -- an invalid index error ends with a parenthesis
      have hlast := invalidIndexError_last hs
      rw [missingSourceError_last] at hlast
      cases hlast
  · cases hcyc : g.findCycle with
    | none => simp [hcyc] at hcycle
    | some c =>
      simp only [hcyc, Option.map_some, Option.toList_some, List.mem_singleton] at hcycle
      rw [hcycle] at hhead
      simp [String.toList_append] at hhead

/-- **Compiling leaves no bypassed node and no new dangling connection**: every
connection of the compiled graph to a missing node is one the template had, at
the same node and input; so a template whose connections all name nodes
compiles with no missing-node error. -/
theorem compile_no_bypassed_no_new_dangling {s : Settings} {schema : Schema} {r : Request}
    {rule : NoisePathRule} {randomSeed : Int} {strict : Bool} {c : Compiled}
    (hc : g.compile s schema r rule randomSeed strict = .ok c) :
    (∀ m ∈ c.graph.nodes, m.isBypassed = false) ∧ g.DanglingFrom c.graph ∧
      (g.Closed → ∀ id input source, missingSourceError id input source ∉ c.errors) := by
  obtain ⟨low, hgrow, hgraph, herrors⟩ := compile_ok hc
  have hdangling : g.DanglingFrom c.graph := by
    rw [hgraph]
    exact hgrow.danglingFrom.trans resolved_danglingFrom
  refine ⟨by rw [hgraph]; exact resolved_no_bypassed, hdangling, fun hclosed id input source => ?_⟩
  exact missingSourceError_not_mem (hdangling.closed hclosed) herrors id input source

/-- A template whose sampler reads the loader through a bypassed modifier,
compiled with a one-modifier chain: the chain goes after the loader, and the
sampler ends up reading the chain. -/
theorem compile_bypassed_modifier_with_chain :
    ∃ c, Graph.compile
        { nodes := [{ id := "1", classType := "CheckpointLoaderSimple" },
            { id := "3", classType := "LoraLoaderModelOnly", inputs := [("model", .connection "1" 0)],
              mode := 4 },
            { id := "2", classType := "KSampler", inputs := [("model", .connection "3" 0)] }] }
        {} Schema.empty { modifierChain := [⟨.str "detail", ⟨0x3FF0000000000000⟩⟩] }
        (NoisePathRule.default {}) 0 false = .ok c ∧
      (∀ m ∈ c.graph.nodes, m.isBypassed = false) ∧
      Graph.DanglingFrom
        { nodes := [{ id := "1", classType := "CheckpointLoaderSimple" },
            { id := "3", classType := "LoraLoaderModelOnly", inputs := [("model", .connection "1" 0)],
              mode := 4 },
            { id := "2", classType := "KSampler", inputs := [("model", .connection "3" 0)] }] }
        c.graph ∧
      (Graph.Closed
        { nodes := [{ id := "1", classType := "CheckpointLoaderSimple" },
            { id := "3", classType := "LoraLoaderModelOnly", inputs := [("model", .connection "1" 0)],
              mode := 4 },
            { id := "2", classType := "KSampler", inputs := [("model", .connection "3" 0)] }] } →
        ∀ id input source, missingSourceError id input source ∉ c.errors) :=
  ⟨_, rfl, @compile_no_bypassed_no_new_dangling _ {} Schema.empty
    { modifierChain := [⟨.str "detail", ⟨0x3FF0000000000000⟩⟩] } (NoisePathRule.default {}) 0 false _ rfl⟩

end Graph

end NodeFlow
