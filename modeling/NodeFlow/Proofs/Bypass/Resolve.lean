import NodeFlow.Bypass
import NodeFlow.Proofs.Graph.Links
import NodeFlow.Proofs.Outcome
/-!
# Resolving bypassed nodes

Under a whole-number hop limit resolution is a plain function of the graph
(`resolved`): the nodes that are not bypassed, in their order, each with its
inputs rewired one at a time (`rewiredInput`), the warnings in the same order,
and the groups cut down to their live members. A walk that passes the limit
writes the limit into a log line, which fails for a limit of more than
`Decimal.maxIntegerDigits` digits; so resolution gives `resolved` unless the
limit is that long (`resolveBypass_gives`), and always under a shorter one
(`resolveBypass_of_digits`).

Read off that function: no node of the result is bypassed, every dangling
connection of the result is one the graph had at the same node and input,
groups list only live nodes and none is left empty, and resolving the result
again, under any limit, changes nothing (`resolveBypass_idem`).
-/

namespace NodeFlow

namespace Graph

/-! ## Failing only for a limit too long to write -/

/-- A hop limit of more than `Decimal.maxIntegerDigits` digits, which the log
line of an exceeded walk cannot write out. -/
def TooLong (d : Int) : Prop := Decimal.maxIntegerDigits < (toString d.natAbs).length

/-- `x` gives `a`, unless the hop limit `d` is too long to write out, when it
may instead fail for that. -/
def GivesUnless {α : Type} (d : Int) (x : Outcome α) (a : α) : Prop :=
  x = .ok a ∨ TooLong d ∧ x = .error .tooManyDigitsToWrite

namespace GivesUnless

variable {α β : Type} {d : Int} {x : Outcome α} {a : α}

/-- What such a computation gives, when it gives anything, is `a`. -/
theorem eq_of_ok (h : GivesUnless d x a) {b : α} (hx : x = .ok b) : b = a := by
  rcases h with h | ⟨-, h⟩
  · rw [h] at hx
    exact (Except.ok.inj hx).symm
  · rw [h] at hx
    cases hx

/-- Under a limit that can be written out, such a computation gives `a`. -/
theorem ok_of_digits (h : GivesUnless d x a) (hd : (toString d.natAbs).length ≤ Decimal.maxIntegerDigits) :
    x = .ok a := by
  rcases h with h | ⟨hlong, -⟩
  · exact h
  · exact absurd hlong (Nat.not_lt.2 hd)

theorem bind {f : α → Outcome β} {b : β} (hx : GivesUnless d x a) (hf : GivesUnless d (f a) b) :
    GivesUnless d (x >>= f) b := by
  rcases hx with rfl | ⟨hlong, rfl⟩
  · exact hf
  · exact .inr ⟨hlong, rfl⟩

theorem map {f : α → β} (hx : GivesUnless d x a) : GivesUnless d (f <$> x) (f a) := by
  rcases hx with rfl | ⟨hlong, rfl⟩
  · exact .inl rfl
  · exact .inr ⟨hlong, rfl⟩

end GivesUnless

/-- The log line of an exceeded walk writes the limit, unless it is too long. -/
theorem givesUnless_logged (d : Int) : GivesUnless d (HopLimit.whole d).logged () := by
  rw [HopLimit.logged]
  by_cases hlong : TooLong d
  · exact .inr ⟨hlong, by rw [integerText_of_too_long hlong]; rfl⟩
  · exact .inl (by rw [integerText_of_digits (Nat.le_of_not_lt hlong)]; rfl)

/-! ## The walk under a whole-number limit -/

/-- The walk of `walkBack` under the whole-number limit `d`. -/
def walkWithin (g : Graph) (bypassed : List String) (expected : String) (d : Int) :
    Nat → (String × Int) → Nat → Option (String × Int)
  | fuel, current, depth =>
    if d < depth then none
    else if !bypassed.contains current.1 then some current
    else match fuel with
      | 0 => none
      | fuel + 1 => match g.stepBack expected current.1 with
        | none => none
        | some up => walkWithin g bypassed expected d fuel up (depth + 1)

variable {g : Graph} {bypassed : List String} {expected : String} {d : Int}

theorem walkBack_whole (fuel : Nat) (current : String × Int) (depth : Nat) :
    GivesUnless d (g.walkBack bypassed expected (.whole d) fuel current depth)
      (g.walkWithin bypassed expected d fuel current depth) := by
  -- a walk that passes the limit, or runs out of fuel, logs the limit and ends nowhere
  have hlogged : GivesUnless d ((fun _ => none) <$> (HopLimit.whole d).logged) (none : Option (String × Int)) :=
    (givesUnless_logged d).map
  induction fuel generalizing current depth with
  | zero =>
    rw [walkBack, walkWithin]
    by_cases hd : d < (depth : Int)
    · simpa [HopLimit.exceededBy, hd] using hlogged
    · by_cases hb : current.1 ∈ bypassed
      · simpa [HopLimit.exceededBy, hd, hb] using hlogged
      · simp [HopLimit.exceededBy, hd, hb, GivesUnless]
  | succ fuel ih =>
    rw [walkBack, walkWithin]
    by_cases hd : d < (depth : Int)
    · simpa [HopLimit.exceededBy, hd] using hlogged
    · by_cases hb : current.1 ∈ bypassed
      · cases hs : g.stepBack expected current.1 with
        | none => simp [HopLimit.exceededBy, hd, hb, GivesUnless]
        | some up => simpa [HopLimit.exceededBy, hd, hb, hs] using ih up (depth + 1)
      · simp [HopLimit.exceededBy, hd, hb, GivesUnless]

/-- A walk that ends, ends outside the bypassed set. -/
theorem walkWithin_live {fuel : Nat} {current c : String × Int} {depth : Nat}
    (h : g.walkWithin bypassed expected d fuel current depth = some c) :
    bypassed.contains c.1 = false := by
  induction fuel generalizing current depth with
  | zero =>
    rw [walkWithin] at h
    by_cases hd : d < (depth : Int)
    · simp [hd] at h
    · by_cases hb : current.1 ∈ bypassed
      · simp [hd, hb] at h
      · simp [hd, hb] at h
        subst h
        simpa using hb
  | succ fuel ih =>
    rw [walkWithin] at h
    by_cases hd : d < (depth : Int)
    · simp [hd] at h
    · by_cases hb : current.1 ∈ bypassed
      · cases hs : g.stepBack expected current.1 with
        | none => simp [hd, hb, hs] at h
        | some up =>
          simp [hd, hb, hs] at h
          exact ih h
      · simp [hd, hb] at h
        subst h
        simpa using hb

/-- Where an input reading from a bypassed node is rewired to under the limit
`d`: the end of its walk, when that is a node of the graph. -/
def rewireWithin (g : Graph) (bypassed : List String) (expected : String) (d : Int)
    (start : String × Int) : Option (String × Int) :=
  match g.walkWithin bypassed expected d (bypassed.length + 1) start 0 with
  | some (s, i) => if g.contains s then some (s, i) else none
  | none => none

theorem rewire_whole (start : String × Int) :
    GivesUnless d (g.rewire bypassed expected (.whole d) start) (g.rewireWithin bypassed expected d start) := by
  unfold rewire rewireWithin
  refine (walkBack_whole _ _ _).bind ?_
  cases g.walkWithin bypassed expected d (bypassed.length + 1) start 0 with
  | none => exact .inl rfl
  | some c => exact .inl rfl

theorem rewire_of_digits (hd : (toString d.natAbs).length ≤ Decimal.maxIntegerDigits) (start : String × Int) :
    g.rewire bypassed expected (.whole d) start = .ok (g.rewireWithin bypassed expected d start) :=
  (rewire_whole start).ok_of_digits hd

/-- A rewired input reads from a live node of the graph. -/
theorem rewireWithin_live {start c : String × Int}
    (h : g.rewireWithin bypassed expected d start = some c) :
    g.contains c.1 = true ∧ bypassed.contains c.1 = false := by
  unfold rewireWithin at h
  split at h
  · rename_i s i hw
    split at h
    · cases h
      exact ⟨‹_›, walkWithin_live hw⟩
    · cases h
  · cases h

/-! ## One input, one node, the whole graph -/

/-- What rewiring gives one input of the live node `n` under the limit `d`: the
inputs it leaves (none or one) and the warnings it adds (none or one). Where
rewiring the input fails, resolution fails as a whole; the input then counts as
dropped. -/
def rewiredInput (g : Graph) (bypassed : List String) (d : Int) (n : Node)
    (input : String × InputValue) : Inputs × List String :=
  match g.rewireInput bypassed (.whole d) n ([], []) input with
  | .ok r => r
  | .error _ => ([], [])

variable {n : Node}

/-- Rewiring an input adds to the inputs and warnings so far what it gives the
input alone. -/
theorem rewireInput_acc (acc : Inputs × List String) (input : String × InputValue) (limit : HopLimit) :
    g.rewireInput bypassed limit n acc input =
      (fun r => (acc.1 ++ r.1, acc.2 ++ r.2)) <$> g.rewireInput bypassed limit n ([], []) input := by
  obtain ⟨ins, ws⟩ := acc
  obtain ⟨name, v⟩ := input
  unfold rewireInput
  cases v with
  | connection s i =>
    by_cases hb : s ∈ bypassed
    · cases ht : typeOfInputName name with
      | none => simp [hb, ht]
      | some t =>
        cases hr : g.rewire bypassed t limit (s, i) with
        | error e => simp [hb, ht, hr, bind, Except.bind]
        | ok c => cases c <;> simp [hb, ht, hr, bind, Except.bind, pure, Except.pure]
    · simp [hb]
  | literal v => simp
  | unconnected t => simp

theorem rewireInput_whole (acc : Inputs × List String) (input : String × InputValue) :
    GivesUnless d (g.rewireInput bypassed (.whole d) n acc input)
      (acc.1 ++ (g.rewiredInput bypassed d n input).1, acc.2 ++ (g.rewiredInput bypassed d n input).2) := by
  rw [rewireInput_acc]
  refine GivesUnless.map ?_
  unfold rewiredInput
  obtain ⟨name, v⟩ := input
  cases v with
  | connection s i =>
    by_cases hb : s ∈ bypassed
    · cases ht : typeOfInputName name with
      | none => exact .inl (by simp [rewireInput, hb, ht])
      | some t =>
        -- the input fails exactly as the walk of its type does
        have hr : GivesUnless d (g.rewire bypassed t (.whole d) (s, i)) (g.rewireWithin bypassed t d (s, i)) :=
          rewire_whole (s, i)
        rcases hr with hr | ⟨hlong, hr⟩
        · left
          cases hw : g.rewireWithin bypassed t d (s, i) <;>
            simp [rewireInput, hb, ht, hr, hw, bind, Except.bind, pure, Except.pure]
        · exact .inr ⟨hlong, by simp [rewireInput, hb, ht, hr, bind, Except.bind]⟩
    · exact .inl (by simp [rewireInput, hb])
  | literal v => exact .inl rfl
  | unconnected t => exact .inl rfl

theorem foldlM_rewireInput (l : Inputs) (acc : Inputs × List String) :
    GivesUnless d (l.foldlM (g.rewireInput bypassed (.whole d) n) acc)
      (acc.1 ++ l.flatMap (fun p => (g.rewiredInput bypassed d n p).1),
        acc.2 ++ l.flatMap (fun p => (g.rewiredInput bypassed d n p).2)) := by
  induction l generalizing acc with
  | nil => exact .inl (by simp [pure, Except.pure])
  | cons p l ih =>
    rw [List.foldlM_cons]
    refine (rewireInput_whole acc p).bind ?_
    have hrest := ih (acc.1 ++ (g.rewiredInput bypassed d n p).1, acc.2 ++ (g.rewiredInput bypassed d n p).2)
    simpa [List.append_assoc] using hrest

/-- The live node `n` with its inputs rewired under the limit `d`. -/
def rewiredNode (g : Graph) (bypassed : List String) (d : Int) (n : Node) : Node :=
  { n with inputs := n.inputs.flatMap fun p => (g.rewiredInput bypassed d n p).1 }

/-- The warnings for the inputs of `n` that rewiring removes. -/
def rewireWarnings (g : Graph) (bypassed : List String) (d : Int) (n : Node) : List String :=
  n.inputs.flatMap fun p => (g.rewiredInput bypassed d n p).2

theorem resolveNode_live (acc : List Node × List String) {m : Node} (hm : m.id ∉ bypassed) :
    GivesUnless d (g.resolveNode bypassed (.whole d) acc m)
      (acc.1 ++ [g.rewiredNode bypassed d m], acc.2 ++ g.rewireWarnings bypassed d m) := by
  have hins : GivesUnless d (m.inputs.foldlM (g.rewireInput bypassed (.whole d) m) ([], []))
      (m.inputs.flatMap fun p => (g.rewiredInput bypassed d m p).1,
        m.inputs.flatMap fun p => (g.rewiredInput bypassed d m p).2) := by
    simpa using foldlM_rewireInput (g := g) m.inputs ([], [])
  unfold resolveNode rewireInputs
  rw [if_neg (by simpa using hm)]
  exact hins.bind (.inl (by simp [rewiredNode, rewireWarnings, pure, Except.pure]))

theorem foldlM_resolveNode (l : List Node) (acc : List Node × List String) :
    GivesUnless d (l.foldlM (g.resolveNode bypassed (.whole d)) acc)
      (acc.1 ++ (l.filter fun n => !bypassed.contains n.id).map (g.rewiredNode bypassed d),
        acc.2 ++ (l.filter fun n => !bypassed.contains n.id).flatMap (g.rewireWarnings bypassed d)) := by
  induction l generalizing acc with
  | nil => exact .inl (by simp [pure, Except.pure])
  | cons m l ih =>
    rw [List.foldlM_cons]
    by_cases hm : m.id ∈ bypassed
    · -- a bypassed node is dropped
      have hstep : g.resolveNode bypassed (.whole d) acc m = .ok acc := by
        simp [resolveNode, hm, pure, Except.pure]
      refine GivesUnless.bind (Or.inl hstep) ?_
      simpa [hm] using ih acc
    · refine (resolveNode_live acc hm).bind ?_
      have hrest := ih (acc.1 ++ [g.rewiredNode bypassed d m], acc.2 ++ g.rewireWarnings bypassed d m)
      simpa [hm, List.append_assoc] using hrest

/-- The nodes resolution keeps: those that are not bypassed, in order. -/
def liveNodes (g : Graph) : List Node := g.nodes.filter fun n => !g.bypassedIds.contains n.id

/-- The groups after resolution: bypassed members dropped, then empty groups. -/
def liveGroups (g : Graph) : List Group :=
  (g.groups.map fun gr => { gr with members := gr.members.filter (!g.bypassedIds.contains ·) }).filter
    (!·.members.isEmpty)

/-- What resolution under the whole-number limit `d` gives: without bypassed
nodes the graph itself, else the live nodes in their order, each with its
inputs rewired, the warnings in the same order, and the groups cut down to
their live members. -/
def resolved (g : Graph) (d : Int) : BypassOutcome :=
  if g.bypassedIds.isEmpty then { graph := g }
  else
    { graph := { g with nodes := g.liveNodes.map (g.rewiredNode g.bypassedIds d), groups := g.liveGroups }
      warnings := g.liveNodes.flatMap (g.rewireWarnings g.bypassedIds d)
      removed := g.bypassedIds }

/-- **Resolution under a whole-number limit, as a function of the graph**: it
gives `resolved`, unless the limit is too long to write out. -/
theorem resolveBypass_gives (g : Graph) (d : Int) : GivesUnless d (g.resolveBypass d) (g.resolved d) := by
  unfold resolveBypass resolveBypassWithin resolved
  by_cases hb : g.bypassedIds.isEmpty = true
  · exact .inl (by simp [hb, pure, Except.pure])
  · rw [if_neg hb, if_neg hb]
    refine (foldlM_resolveNode g.nodes ([], [])).bind (.inl ?_)
    simp [pure, Except.pure, liveNodes, liveGroups]

/-- Whatever resolution gives is `resolved`. -/
theorem resolveBypass_eq_ok {r : BypassOutcome} (h : g.resolveBypass d = .ok r) : r = g.resolved d :=
  (resolveBypass_gives g d).eq_of_ok h

/-- Under a limit that can be written out, resolution gives `resolved`. -/
theorem resolveBypass_of_digits (hd : (toString d.natAbs).length ≤ Decimal.maxIntegerDigits) :
    g.resolveBypass d = .ok (g.resolved d) :=
  (resolveBypass_gives g d).ok_of_digits hd

/-! ## What the rewired inputs read from -/

/-- An input that is no connection into the bypassed set stays as it is. -/
theorem rewiredInput_keep {input : String × InputValue}
    (h : ∀ s i, input.2 = .connection s i → bypassed.contains s = false) :
    g.rewiredInput bypassed d n input = ([input], []) := by
  obtain ⟨name, v⟩ := input
  unfold rewiredInput rewireInput
  cases v with
  | connection s i =>
    have hs : s ∉ bypassed := by simpa using h s i rfl
    simp [hs]
  | literal v => rfl
  | unconnected t => rfl

/-- A connection that rewiring leaves is the input's own, from a live source,
or one to a live node of the graph. -/
theorem rewiredInput_connection {input : String × InputValue} {name s : String} {i : Int}
    (h : (name, .connection s i) ∈ (g.rewiredInput bypassed d n input).1) :
    (input = (name, .connection s i) ∧ bypassed.contains s = false) ∨
      (g.contains s = true ∧ bypassed.contains s = false) := by
  obtain ⟨name', v⟩ := input
  by_cases hlink : ∃ s' i', v = .connection s' i' ∧ s' ∈ bypassed
  · obtain ⟨s', i', rfl, hb⟩ := hlink
    -- the input read from a bypassed node: it is rewired or removed
    right
    unfold rewiredInput rewireInput at h
    cases ht : typeOfInputName name' with
    | none => simp [hb, ht] at h
    | some t =>
      have hr : GivesUnless d (g.rewire bypassed t (.whole d) (s', i')) (g.rewireWithin bypassed t d (s', i')) :=
        rewire_whole (s', i')
      rcases hr with hr | ⟨-, hr⟩
      · cases hw : g.rewireWithin bypassed t d (s', i') with
        | none => simp [hb, ht, hr, hw, bind, Except.bind, pure, Except.pure] at h
        | some c =>
          simp [hb, ht, hr, hw, bind, Except.bind, pure, Except.pure] at h
          obtain ⟨-, rfl, rfl⟩ := h
          exact rewireWithin_live hw
      · -- a walk that fails makes the whole resolution fail; the input counts as dropped
        simp [hb, ht, hr, bind, Except.bind] at h
  · have hkeep : ∀ s i, v = .connection s i → bypassed.contains s = false := by
      intro s i hv
      simpa using fun hb => hlink ⟨s, i, hv, hb⟩
    rw [rewiredInput_keep hkeep, List.mem_singleton] at h
    left
    refine ⟨h.symm, ?_⟩
    exact hkeep s i (Prod.mk.inj h).2.symm

theorem mem_connections_rewiredNode {m : Node} {name s : String} {i : Int}
    (h : (name, s, i) ∈ (g.rewiredNode bypassed d m).connections) :
    ((name, s, i) ∈ m.connections ∧ bypassed.contains s = false) ∨
      (g.contains s = true ∧ bypassed.contains s = false) := by
  rw [Node.mem_connections] at h
  obtain ⟨p, hp, hq⟩ := List.mem_flatMap.1 h
  rcases rewiredInput_connection hq with ⟨rfl, hs⟩ | hlive
  · exact .inl ⟨Node.mem_connections.2 hp, hs⟩
  · exact .inr hlive

/-! ## What the result promises -/

theorem mem_bypassedIds {x : String} :
    x ∈ g.bypassedIds ↔ ∃ n ∈ g.nodes, n.isBypassed = true ∧ n.id = x := by
  simp [bypassedIds, and_assoc]

theorem mem_liveNodes {m : Node} :
    m ∈ g.liveNodes ↔ m ∈ g.nodes ∧ g.bypassedIds.contains m.id = false := by
  simp [liveNodes]

/-- A bypassed node's id is among the bypassed ids. -/
theorem bypassedIds_contains_of_bypassed {m : Node} (hm : m ∈ g.nodes) (hb : m.isBypassed = true) :
    g.bypassedIds.contains m.id = true := by
  simpa using mem_bypassedIds.2 ⟨m, hm, hb, rfl⟩

/-- A live node of the graph stays a node of the result. -/
theorem contains_resolved {x : String} (hx : g.contains x = true)
    (hb : g.bypassedIds.contains x = false) : (g.resolved d).graph.contains x = true := by
  unfold resolved
  split
  · exact hx
  · obtain ⟨m, hm, rfl⟩ := contains_iff.1 hx
    exact contains_iff.2 ⟨g.rewiredNode g.bypassedIds d m,
      List.mem_map.2 ⟨m, mem_liveNodes.2 ⟨hm, hb⟩, rfl⟩, rfl⟩

/-- **No node of the result is bypassed.** -/
theorem resolved_no_bypassed : ∀ m ∈ (g.resolved d).graph.nodes, m.isBypassed = false := by
  intro m hm
  unfold resolved at hm
  split at hm
  · rename_i hempty
    cases hb : m.isBypassed with
    | false => rfl
    | true =>
      have hin := bypassedIds_contains_of_bypassed hm hb
      simp_all
  · obtain ⟨k, hk, rfl⟩ := List.mem_map.1 hm
    obtain ⟨hk, hlive⟩ := mem_liveNodes.1 hk
    cases hb : k.isBypassed with
    | false => exact hb
    | true =>
      rw [bypassedIds_contains_of_bypassed hk hb] at hlive
      exact absurd hlive (by decide)

/-- **Every dangling connection of the result is one the graph had**, at the
same node and input: a rewired input always reads from a live node. -/
theorem resolved_danglingFrom : g.DanglingFrom (g.resolved d).graph := by
  intro id name s i hl hc
  by_cases hempty : g.bypassedIds.isEmpty = true
  · rw [resolved, if_pos hempty] at hl hc
    exact ⟨hl, hc⟩
  · -- a source that is a live node of the graph is a node of the result
    have hmiss : ∀ hs : g.contains s = true, g.bypassedIds.contains s = false → False := by
      intro hs hb
      rw [contains_resolved hs hb] at hc
      exact absurd hc (by decide)
    rw [resolved, if_neg hempty] at hl
    obtain ⟨m, hm, rfl, hcm⟩ := hl
    obtain ⟨k, hk, rfl⟩ := List.mem_map.1 hm
    rcases mem_connections_rewiredNode hcm with ⟨hck, hb⟩ | ⟨hs, hb⟩
    · refine ⟨⟨k, (mem_liveNodes.1 hk).1, rfl, hck⟩, ?_⟩
      cases hs : g.contains s with
      | false => rfl
      | true => exact (hmiss hs hb).elim
    · exact (hmiss hs hb).elim

/-- **Groups keep only live members, and none is left empty** when some node
was removed. -/
theorem resolved_groups :
    ∀ gr ∈ (g.resolved d).graph.groups,
      (∀ m ∈ gr.members, m ∉ g.bypassedIds) ∧ (g.bypassedIds ≠ [] → gr.members ≠ []) := by
  intro gr hgr
  unfold resolved at hgr
  split at hgr
  · rename_i hempty
    have hnil : g.bypassedIds = [] := List.isEmpty_iff.1 hempty
    exact ⟨fun m _ hm => by simp [hnil] at hm, fun h => absurd hnil h⟩
  · simp only [liveGroups, List.mem_filter, List.mem_map] at hgr
    obtain ⟨⟨gr', -, rfl⟩, hne⟩ := hgr
    refine ⟨fun m hm => ?_, fun _ => by simpa using hne⟩
    simp only [List.mem_filter] at hm
    simpa using hm.2

theorem bypassedIds_eq_nil_iff : g.bypassedIds = [] ↔ ∀ m ∈ g.nodes, m.isBypassed = false := by
  simp [bypassedIds, List.filter_eq_nil_iff]

/-- The graph itself when nothing is bypassed, whatever the limit: no walk is
taken. -/
theorem resolveBypass_of_none (h : ∀ m ∈ g.nodes, m.isBypassed = false) (d : Int) :
    g.resolveBypass d = .ok { graph := g } := by
  unfold resolveBypass resolveBypassWithin
  rw [bypassedIds_eq_nil_iff.2 h]
  rfl

/-- **Resolving a resolved graph changes nothing**, under any limit: it comes
back as it is, without warnings or removed ids. -/
theorem resolveBypass_idem {r : BypassOutcome} (hr : g.resolveBypass d = .ok r) (d' : Int) :
    r.graph.resolveBypass d' = .ok { graph := r.graph } := by
  rw [resolveBypass_eq_ok hr]
  exact resolveBypass_of_none resolved_no_bypassed d'

end Graph

end NodeFlow
