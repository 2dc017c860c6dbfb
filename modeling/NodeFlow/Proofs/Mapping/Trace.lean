import Mathlib.Data.List.Perm.Subperm
import NodeFlow.Mapping.Candidate
/-!
# The conditioning trace, level by level

`Graph.tracePolarity` walks breadth first from an encoder. It scans the edges
out of each node it takes from its queue and, below `maxTraceDepth`, queues the
targets that pass conditioning on and were not visited yet. Read level by
level, the queue always holds the rest of one level followed by the start of
the next (`traceQueue_level`), so the walk equals `Graph.traceLevels`, which
scans whole levels and computes each next level at once
(`traceQueue_eq_traceLevels`). The walk's fuel never ends it early: the
visited ids are distinct and each is the encoder or a node id, so every fuel
above the number of nodes gives the same answer.

The ids visited after `k` levels are those reached from the encoder by a walk
of at most `k` edges through other nodes that pass conditioning on
(`mem_traceLevel_iff`). So a trace decides exactly when such a walk of at most
`maxTraceDepth` edges ends at a node with an edge into a polarity input
(`tracePolarity_isSome_iff`).
-/

namespace NodeFlow

namespace Polarity

/-- The polarity an input name gives, by cases on its lower-case form. -/
theorem ofInputName_eq (input : String) :
    ofInputName input =
      if Text.toLower input = "negative" then some .negative
      else if Text.toLower input = "positive" ∨ Text.toLower input = "conditioning" then some .positive
      else none := by
  unfold ofInputName
  split <;> simp_all

theorem isSome_ofInputName (input : String) :
    (ofInputName input).isSome ↔ Text.toLower input ∈ ["positive", "negative", "conditioning"] := by
  rw [ofInputName_eq]
  split_ifs <;> simp_all

end Polarity

namespace Graph

variable {g : Graph} {n : String}

/-! ## What a trace walks through -/

/-- A node a trace may walk through: it exists, and it passes conditioning on
or declares no outputs. -/
def Conducts (g : Graph) (id : String) : Prop :=
  ∃ m, g.get? id = some m ∧ (m.outputs = [] ∨ m.hasOutputType "CONDITIONING" = true)

/-- A node with an edge into an input whose lower-case name is a polarity or
`conditioning`. -/
def Decides (g : Graph) (id : String) : Prop :=
  ∃ e ∈ g.outgoing id, Text.toLower e.input ∈ ["positive", "negative", "conditioning"]

/-- A walk of `k` edges from `n` to a node, as a trace may take it: every node
after the first is another node than `n` and conducts. -/
inductive TracePath (g : Graph) (n : String) : String → Nat → Prop
  | start : TracePath g n n 0
  | step {u : String} {k : Nat} (e : Edge) :
      TracePath g n u k → e ∈ g.outgoing u → e.target ≠ n → g.Conducts e.target →
      TracePath g n e.target (k + 1)

theorem passesConditioning_iff {visited : List String} {id : String} :
    g.passesConditioning visited id = true ↔ id ∉ visited ∧ g.Conducts id := by
  unfold passesConditioning Conducts
  cases g.get? id with
  | none => simp
  | some m => simp [List.isEmpty_iff]

theorem mem_ids_of_conducts {id : String} (h : g.Conducts id) : id ∈ g.ids := by
  obtain ⟨m, hget, -⟩ := h
  have hid : m.id = id := by simpa using List.find?_some hget
  exact List.mem_map.2 ⟨m, List.mem_of_find?_eq_some hget, hid⟩

/-! ## Admitting targets -/

/-- The nodes the edges out of `u` enter, in edge order. -/
def successors (g : Graph) (u : String) : List String := (g.outgoing u).map (·.target)

/-- The targets a trace admits, in order, given the ids it has visited: each
target that conducts and is not visited, the ones admitted before it counting
as visited. -/
def admitTargets (g : Graph) (visited : List String) : List String → List String
  | [] => []
  | t :: ts =>
    if g.passesConditioning visited t then t :: g.admitTargets (visited ++ [t]) ts
    else g.admitTargets visited ts

theorem mem_admitTargets {visited ts : List String} {t : String} :
    t ∈ g.admitTargets visited ts ↔ t ∈ ts ∧ t ∉ visited ∧ g.Conducts t := by
  induction ts generalizing visited with
  | nil => simp [admitTargets]
  | cons t' ts ih =>
    unfold admitTargets
    split
    · rename_i hpass
      rw [passesConditioning_iff] at hpass
      simp only [List.mem_cons, ih, List.mem_append, not_or]
      -- `t'` itself is admitted; a later `t` must differ from it
      by_cases heq : t = t'
      · subst heq
        simp [hpass]
      · simp [heq]
    · rename_i hpass
      rw [passesConditioning_iff] at hpass
      rw [ih, List.mem_cons]
      -- `t'` is not admitted, so no `t` equal to it is
      constructor
      · rintro ⟨hts, hv, hc⟩
        exact ⟨.inr hts, hv, hc⟩
      · rintro ⟨rfl | hts, hv, hc⟩
        · exact absurd ⟨hv, hc⟩ hpass
        · exact ⟨hts, hv, hc⟩

theorem admitTargets_nodup (visited ts : List String) : (g.admitTargets visited ts).Nodup := by
  induction ts generalizing visited with
  | nil => exact List.nodup_nil
  | cons t ts ih =>
    unfold admitTargets
    split
    · refine List.nodup_cons.2 ⟨fun h => ?_, ih _⟩
      exact (mem_admitTargets.1 h).2.1 (List.mem_append_right _ (List.mem_singleton_self t))
    · exact ih _

theorem admitTargets_append (visited xs ys : List String) :
    g.admitTargets visited (xs ++ ys) =
      g.admitTargets visited xs ++ g.admitTargets (visited ++ g.admitTargets visited xs) ys := by
  induction xs generalizing visited with
  | nil => simp [admitTargets]
  | cons x xs ih =>
    simp only [List.cons_append, admitTargets]
    split
    · simp [ih, List.append_assoc]
    · exact ih visited

/-- Queueing the targets of some edges one edge at a time adds the admitted
targets to the visited ids and, at depth `d`, to the queued entries. -/
theorem foldl_admit (es : List Edge) (visited : List String) (queued : List (String × Nat)) (d : Nat) :
    es.foldl (fun (acc : List String × List (String × Nat)) e =>
        if g.passesConditioning acc.1 e.target then (acc.1 ++ [e.target], acc.2 ++ [(e.target, d)]) else acc)
      (visited, queued) =
    (visited ++ g.admitTargets visited (es.map (·.target)),
      queued ++ (g.admitTargets visited (es.map (·.target))).map (·, d)) := by
  induction es generalizing visited queued with
  | nil => simp [admitTargets]
  | cons e es ih =>
    simp only [List.foldl_cons, List.map_cons, admitTargets]
    split
    · rw [ih]
      simp [List.append_assoc]
    · exact ih visited queued

/-! ## The queue, one level at a time -/

/-- The polarity of the first deciding edge out of `ids`, taking the ids in
order and each one's edges in order. -/
def firstDecision (g : Graph) (ids : List String) : Option Polarity :=
  ids.findSome? fun u => (g.outgoing u).findSome? fun e => Polarity.ofInputName e.input

theorem isSome_firstDecision {ids : List String} :
    (g.firstDecision ids).isSome ↔ ∃ v ∈ ids, g.Decides v := by
  simp only [firstDecision, List.findSome?_isSome_iff, Decides, Polarity.isSome_ofInputName]

/-- **One level of the queue.** While the queue holds the rest of a level at a
depth `d` below the bound, followed by part of the next level, taking the rest
of the level scans it and queues what it admits behind the next level's part. -/
theorem traceQueue_level {d : Nat} (hd : d < maxTraceDepth) (fuel : Nat) :
    ∀ (level next visited : List String),
      g.traceQueue (fuel + level.length) visited (level.map (·, d) ++ next.map (·, d + 1)) =
        (g.firstDecision level).or
          (g.traceQueue fuel (visited ++ g.admitTargets visited (level.flatMap g.successors))
            ((next ++ g.admitTargets visited (level.flatMap g.successors)).map (·, d + 1)))
  | [], next, visited => by simp [firstDecision, admitTargets]
  | u :: level, next, visited => by
    rw [List.length_cons, ← Nat.add_assoc, List.map_cons, List.cons_append, traceQueue]
    cases hu : (g.outgoing u).findSome? fun e => Polarity.ofInputName e.input with
    | some p => simp [firstDecision, hu]
    | none =>
      -- `u` decides nothing, lies below the bound, and queues what its edges admit
      simp only [if_neg (Nat.not_le.2 hd), foldl_admit]
      rw [List.nil_append, List.append_assoc, ← List.map_append, traceQueue_level hd fuel level]
      simp only [firstDecision, List.findSome?_cons, hu, List.flatMap_cons, successors,
        admitTargets_append, List.append_assoc]

/-- **The last level.** At the depth bound the queue is only scanned. -/
theorem traceQueue_last {d : Nat} (hd : maxTraceDepth ≤ d) (fuel : Nat) :
    ∀ (level visited : List String),
      g.traceQueue (fuel + level.length) visited (level.map (·, d)) = g.firstDecision level
  | [], visited => by cases fuel <;> rfl
  | u :: level, visited => by
    rw [List.length_cons, ← Nat.add_assoc, List.map_cons, traceQueue]
    cases hu : (g.outgoing u).findSome? fun e => Polarity.ofInputName e.input with
    | some p => simp [firstDecision, hu]
    | none =>
      simp only [if_pos hd, traceQueue_last hd fuel level visited]
      simp [firstDecision, hu]

/-! ## The walk by whole levels -/

/-- One level further: the next level is what the current one admits, and it
joins the visited ids. -/
def nextLevel (g : Graph) (p : List String × List String) : List String × List String :=
  let next := g.admitTargets p.1 (p.2.flatMap g.successors)
  (p.1 ++ next, next)

/-- The trace read by levels, from the visited ids and the current level: scan
the level and, with `m` levels to go, go on to the next one. -/
def traceLevels (g : Graph) : Nat → List String × List String → Option Polarity
  | 0, p => g.firstDecision p.2
  | m + 1, p => (g.firstDecision p.2).or (g.traceLevels m (g.nextLevel p))

/-- Distinct ids, each `n` or a node id, are at most one more than the nodes. -/
theorem length_le_of_visited {visited : List String} (hnd : visited.Nodup) (hsub : visited ⊆ n :: g.ids) :
    visited.length ≤ g.nodes.length + 1 := by
  simpa [Graph.ids] using (List.Nodup.subperm hnd hsub).length_le

/-- **The queue is the walk by levels.** Given fuel for the current level and
for every node not yet visited, the queue's answer is the one by levels; the
visited ids stay distinct and are `n` or node ids, which bounds what is left. -/
theorem traceQueue_eq_traceLevels :
    ∀ (m d fuel : Nat) (p : List String × List String), d + m = maxTraceDepth → p.1.Nodup →
      p.1 ⊆ n :: g.ids → p.2.length + (g.nodes.length + 1) ≤ fuel + p.1.length →
      g.traceQueue fuel p.1 (p.2.map (·, d)) = g.traceLevels m p := by
  intro m
  induction m with
  | zero =>
    intro d fuel p hd hnd hsub hfuel
    have hvisited := length_le_of_visited hnd hsub
    obtain ⟨extra, rfl⟩ : ∃ extra, fuel = extra + p.2.length := ⟨fuel - p.2.length, by omega⟩
    exact traceQueue_last (by omega) extra p.2 p.1
  | succ m ih =>
    intro d fuel p hd hnd hsub hfuel
    have hvisited := length_le_of_visited hnd hsub
    obtain ⟨extra, rfl⟩ : ∃ extra, fuel = extra + p.2.length := ⟨fuel - p.2.length, by omega⟩
    have hlevel := traceQueue_level (g := g) (d := d) (by omega) extra p.2 [] p.1
    rw [List.map_nil, List.append_nil, List.nil_append] at hlevel
    rw [hlevel, traceLevels]
    congr 1
    -- the admitted ids are new node ids, distinct among themselves
    have hadmit := g.admitTargets_nodup p.1 (p.2.flatMap g.successors)
    refine ih (d + 1) extra (g.nextLevel p) (by omega) ?_ ?_ ?_
    · refine List.nodup_append.2 ⟨hnd, hadmit, fun a ha b hb => ?_⟩
      rintro rfl
      exact (mem_admitTargets.1 hb).2.1 ha
    · intro v hv
      rcases List.mem_append.1 hv with hv | hv
      · exact hsub hv
      · exact List.mem_cons_of_mem n (mem_ids_of_conducts (mem_admitTargets.1 hv).2.2)
    · simp only [nextLevel, List.length_append]
      omega

/-- The trace from `n` is the walk by levels from `n`, and so is the queue with
any fuel above the number of nodes. -/
theorem traceQueue_start {fuel : Nat} (hfuel : g.nodes.length + 1 ≤ fuel) :
    g.traceQueue fuel [n] [(n, 0)] = g.traceLevels maxTraceDepth ([n], [n]) :=
  traceQueue_eq_traceLevels (n := n) maxTraceDepth 0 fuel ([n], [n]) (by omega) (by simp)
    (by simp) (by simp only [List.length_singleton]; omega)

theorem tracePolarity_eq_traceLevels : g.tracePolarity n = g.traceLevels maxTraceDepth ([n], [n]) :=
  traceQueue_start (by omega)

/-! ## What the levels hold -/

/-- The visited ids and the current level of a trace from `n` after `k` levels. -/
def traceLevel (g : Graph) (n : String) : Nat → List String × List String
  | 0 => ([n], [n])
  | k + 1 => g.nextLevel (g.traceLevel n k)

theorem mem_nextLevel_fst {p : List String × List String} {v : String} :
    v ∈ (g.nextLevel p).1 ↔ v ∈ p.1 ∨ v ∈ (g.nextLevel p).2 := List.mem_append

theorem mem_nextLevel_snd {p : List String × List String} {v : String} :
    v ∈ (g.nextLevel p).2 ↔ v ∉ p.1 ∧ g.Conducts v ∧ ∃ u ∈ p.2, ∃ e ∈ g.outgoing u, e.target = v := by
  simp only [nextLevel, mem_admitTargets, List.mem_flatMap, successors, List.mem_map]
  tauto

/-- An edge out of the current level into a conducting node ends at an id
visited one level on. -/
theorem target_mem_nextLevel {p : List String × List String} {u : String} {e : Edge}
    (hu : u ∈ p.2) (he : e ∈ g.outgoing u) (hc : g.Conducts e.target) : e.target ∈ (g.nextLevel p).1 := by
  rw [mem_nextLevel_fst]
  by_cases hv : e.target ∈ p.1
  · exact .inl hv
  · exact .inr (mem_nextLevel_snd.2 ⟨hv, hc, u, hu, e, he, rfl⟩)

theorem traceLevel_snd_subset (k : Nat) : (g.traceLevel n k).2 ⊆ (g.traceLevel n k).1 := by
  cases k with
  | zero => exact List.Subset.refl _
  | succ k => exact List.subset_append_right _ _

theorem traceLevel_fst_mono {i k : Nat} (h : i ≤ k) : (g.traceLevel n i).1 ⊆ (g.traceLevel n k).1 := by
  obtain ⟨j, rfl⟩ := Nat.exists_eq_add_of_le h
  induction j with
  | zero => exact List.Subset.refl _
  | succ j ih => exact List.Subset.trans (ih (by omega)) (List.subset_append_left _ _)

theorem start_mem_traceLevel (k : Nat) : n ∈ (g.traceLevel n k).1 :=
  traceLevel_fst_mono (Nat.zero_le k) (List.mem_singleton_self n)

/-- **Closure.** An edge out of any visited id into a conducting node ends at
an id visited one level on. -/
theorem target_mem_traceLevel {k : Nat} {u : String} {e : Edge} (hu : u ∈ (g.traceLevel n k).1)
    (he : e ∈ g.outgoing u) (hc : g.Conducts e.target) : e.target ∈ (g.traceLevel n (k + 1)).1 := by
  induction k with
  | zero => exact target_mem_nextLevel hu he hc
  | succ k ih =>
    -- `u` was visited before the current level, or is in it
    rcases mem_nextLevel_fst.1 hu with hold | hnew
    · exact List.subset_append_left _ _ (ih hold)
    · exact target_mem_nextLevel hnew he hc

/-- **The levels are the distances.** The ids visited after `k` levels are the
ones a trace path of at most `k` edges reaches. -/
theorem mem_traceLevel_iff {k : Nat} {v : String} :
    v ∈ (g.traceLevel n k).1 ↔ ∃ j ≤ k, g.TracePath n v j := by
  constructor
  · intro hv
    induction k generalizing v with
    | zero =>
      obtain rfl := List.mem_singleton.1 hv
      exact ⟨0, Nat.le_refl _, .start⟩
    | succ k ih =>
      rcases mem_nextLevel_fst.1 hv with hold | hnew
      · obtain ⟨j, hj, hpath⟩ := ih hold
        exact ⟨j, by omega, hpath⟩
      · -- a new id is entered from the level before, and is not `n`, which was visited
        obtain ⟨hnot, hc, u, hu, e, he, rfl⟩ := mem_nextLevel_snd.1 hnew
        obtain ⟨j, hj, hpath⟩ := ih (traceLevel_snd_subset k hu)
        have hne : e.target ≠ n := fun h => hnot (h ▸ start_mem_traceLevel k)
        exact ⟨j + 1, by omega, .step e hpath he hne hc⟩
  · rintro ⟨j, hj, hpath⟩
    induction hpath generalizing k with
    | start => exact start_mem_traceLevel k
    | @step u j e _ he _ hc ih =>
      obtain ⟨k, rfl⟩ : ∃ k', k = k' + 1 := ⟨k - 1, by omega⟩
      exact target_mem_traceLevel (ih (by omega)) he hc

/-- An id is in one of the first `k + 1` levels exactly when it is visited
after `k` levels. -/
theorem exists_traceLevel_snd_iff {k : Nat} {v : String} :
    (∃ i ≤ k, v ∈ (g.traceLevel n i).2) ↔ v ∈ (g.traceLevel n k).1 := by
  constructor
  · rintro ⟨i, hi, hv⟩
    exact traceLevel_fst_mono hi (traceLevel_snd_subset i hv)
  · intro hv
    induction k with
    | zero => exact ⟨0, Nat.le_refl _, hv⟩
    | succ k ih =>
      rcases mem_nextLevel_fst.1 hv with hold | hnew
      · obtain ⟨i, hi, hv⟩ := ih hold
        exact ⟨i, by omega, hv⟩
      · exact ⟨k + 1, Nat.le_refl _, hnew⟩

/-- The walk by levels from level `k` with `m` levels to go decides exactly
when one of those levels holds a deciding node. -/
theorem isSome_traceLevels (m k : Nat) :
    (g.traceLevels m (g.traceLevel n k)).isSome ↔
      ∃ i, k ≤ i ∧ i ≤ k + m ∧ ∃ v ∈ (g.traceLevel n i).2, g.Decides v := by
  induction m generalizing k with
  | zero =>
    rw [traceLevels, isSome_firstDecision]
    constructor
    · intro h
      exact ⟨k, Nat.le_refl _, by omega, h⟩
    · rintro ⟨i, h1, h2, h⟩
      obtain rfl : i = k := by omega
      exact h
  | succ m ih =>
    rw [traceLevels, Option.isSome_or, Bool.or_eq_true, isSome_firstDecision]
    -- the level after level `k` is level `k + 1`
    rw [show g.nextLevel (g.traceLevel n k) = g.traceLevel n (k + 1) from rfl, ih]
    constructor
    · rintro (h | ⟨i, h1, h2, h⟩)
      · exact ⟨k, Nat.le_refl _, by omega, h⟩
      · exact ⟨i, by omega, by omega, h⟩
    · rintro ⟨i, h1, h2, h⟩
      rcases Nat.eq_or_lt_of_le h1 with rfl | hlt
      · exact .inl h
      · exact .inr ⟨i, hlt, by omega, h⟩

/-! ## The trace -/

/-- **A trace decides exactly on a short enough walk:** one of at most
`maxTraceDepth` edges, through other nodes that conduct, to a node with an edge
into a polarity input. -/
theorem tracePolarity_isSome_iff :
    (g.tracePolarity n).isSome ↔ ∃ v k, k ≤ maxTraceDepth ∧ g.TracePath n v k ∧ g.Decides v := by
  rw [tracePolarity_eq_traceLevels,
    show (([n], [n]) : List String × List String) = g.traceLevel n 0 from rfl, isSome_traceLevels]
  constructor
  · rintro ⟨i, -, hi, v, hv, hdec⟩
    obtain ⟨k, hk, hpath⟩ := mem_traceLevel_iff.1 (exists_traceLevel_snd_iff.1 ⟨i, by omega, hv⟩)
    exact ⟨v, k, hk, hpath, hdec⟩
  · rintro ⟨v, k, hk, hpath, hdec⟩
    obtain ⟨i, hi, hv⟩ := exists_traceLevel_snd_iff.2 (mem_traceLevel_iff.2 ⟨k, hk, hpath⟩)
    exact ⟨i, Nat.zero_le i, by omega, v, hv, hdec⟩

/-- **A direct edge decides first.** When one of `n`'s own edges enters a
polarity input, the trace gives the polarity of the first such edge, with
`conditioning` counting as positive. -/
theorem tracePolarity_of_direct {pre post : List Edge} {e : Edge} (hout : g.outgoing n = pre ++ e :: post)
    (hpre : ∀ e' ∈ pre, Text.toLower e'.input ∉ ["positive", "negative", "conditioning"])
    (he : Text.toLower e.input ∈ ["positive", "negative", "conditioning"]) :
    g.tracePolarity n = some (if Text.toLower e.input = "negative" then .negative else .positive) := by
  have hskip : pre.findSome? (fun e => Polarity.ofInputName e.input) = none := by
    refine List.findSome?_eq_none_iff.2 fun e' he' => ?_
    rw [← Option.not_isSome_iff_eq_none, Polarity.isSome_ofInputName]
    exact hpre e' he'
  have hfirst : Polarity.ofInputName e.input =
      some (if Text.toLower e.input = "negative" then .negative else .positive) := by
    rw [Polarity.ofInputName_eq]
    simp only [List.mem_cons, List.not_mem_nil, or_false] at he
    split_ifs <;> simp_all
  rw [tracePolarity_eq_traceLevels, show maxTraceDepth = 9 + 1 from rfl, traceLevels]
  simp [firstDecision, hout, List.findSome?_append, hskip, hfirst]

/-- **The conditioning trace is a bounded breadth-first search.** Any fuel past
the number of nodes gives the trace's own answer, so the fuel never ends it
early; the trace decides exactly when a walk of at most `maxTraceDepth` edges
through other nodes that conduct reaches a node with an edge into a polarity
input; and when edges of `n`'s own enter one, the first of them decides, with
`conditioning` counting as positive. -/
theorem tracePolarity_bounded_search (g : Graph) (n : String) :
    (∀ fuel, g.nodes.length + 1 ≤ fuel → g.traceQueue fuel [n] [(n, 0)] = g.tracePolarity n) ∧
    (g.tracePolarity n ≠ none ↔ ∃ v k, k ≤ maxTraceDepth ∧ g.TracePath n v k ∧ g.Decides v) ∧
    ∀ pre e post, g.outgoing n = pre ++ e :: post →
      (∀ e' ∈ pre, Text.toLower e'.input ∉ ["positive", "negative", "conditioning"]) →
      Text.toLower e.input ∈ ["positive", "negative", "conditioning"] →
      g.tracePolarity n = some (if Text.toLower e.input = "negative" then .negative else .positive) := by
  refine ⟨fun fuel hfuel => ?_, Option.ne_none_iff_isSome.trans tracePolarity_isSome_iff,
    fun pre e post => tracePolarity_of_direct⟩
  rw [traceQueue_start hfuel, tracePolarity_eq_traceLevels]

/-- An encoder whose output a sampler reads as its positive conditioning. -/
def encoderSamplerGraph : Graph :=
  { nodes := [{ id := "1", classType := "CLIPTextEncode" },
    { id := "2", classType := "KSampler", inputs := [("positive", .connection "1" 0)] }] }

/-- The encoder of `encoderSamplerGraph` is traced to the positive prompt by
its one edge, with three steps of fuel. -/
theorem tracePolarity_encoder_sampler :
    encoderSamplerGraph.nodes.length + 1 ≤ 3 ∧
      encoderSamplerGraph.traceQueue 3 ["1"] [("1", 0)] = encoderSamplerGraph.tracePolarity "1" ∧
      encoderSamplerGraph.outgoing "1" = [] ++ ⟨"1", 0, "2", "positive"⟩ :: [] ∧
      Text.toLower "positive" ∈ ["positive", "negative", "conditioning"] ∧
      encoderSamplerGraph.tracePolarity "1" = some .positive := by
  obtain ⟨hfuel, -, hdirect⟩ := tracePolarity_bounded_search encoderSamplerGraph "1"
  have hout : encoderSamplerGraph.outgoing "1" = [] ++ ⟨"1", 0, "2", "positive"⟩ :: [] := by decide
  have hlower : Text.toLower "positive" = "positive" := by decide +kernel
  refine ⟨by decide, hfuel 3 (by decide), hout, by simp [hlower], ?_⟩
  simpa [hlower] using hdirect [] _ [] hout (by simp) (by simp [hlower])

end Graph

end NodeFlow
