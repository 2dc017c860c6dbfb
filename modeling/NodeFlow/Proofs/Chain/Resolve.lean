import NodeFlow.Proofs.Chain.Shape
/-!
# Injecting a chain before resolving bypassed nodes

Injection redirects output 0 of the model source to the chain's last node and
appends the chain (`injectChain_eq`). Resolution commutes with such a
redirection (`Redirection.resolved`): every walk back through bypassed
nodes takes the same hops in both graphs, since redirecting changes sources
and never input names, and it ends on the chain's last node exactly where it
ended on the source before. The chain's own nodes are live and read only live
nodes, so resolution leaves them as they are.

One thing can tell the two apart: a bypassed node that reads a missing node
whose id the chain then takes. Before injection the walk through it stops at
nothing and the input is removed with a warning; after injection it stops at
a modifier of the chain (`injectChain_fills_dangling_read`). Without such a
read, resolving after injecting is resolving first and then redirecting
(`resolveBypass_injectChain`).
-/

namespace NodeFlow

/-- The link an input reads once output 0 of `source` is redirected to output 0
of `target`. -/
def redirectLink (source target : String) (link : String × Int) : String × Int :=
  if link.1 == source && link.2 == 0 then (target, 0) else link

section Links

variable {source target : String}

theorem redirectLink_of_ne {link : String × Int} (h : link.1 ≠ source) :
    redirectLink source target link = link := by
  unfold redirectLink
  rw [if_neg (by simp [h])]

theorem redirectLink_fst (link : String × Int) :
    (redirectLink source target link).1 = link.1 ∨ (redirectLink source target link).1 = target := by
  unfold redirectLink
  split
  · exact .inr rfl
  · exact .inl rfl

theorem InputValue.redirect_connection (s : String) (i : Int) :
    (InputValue.connection s i).redirect source target =
      .connection (redirectLink source target (s, i)).1 (redirectLink source target (s, i)).2 := by
  unfold InputValue.redirect redirectLink
  by_cases hc : (s == source && i == 0) = true
  · simp only [hc, if_true]
  · simp only [hc, Bool.false_eq_true, if_false]

@[simp] theorem Node.redirect_id (n : Node) : (n.redirect source target).id = n.id := rfl

@[simp] theorem Node.redirect_classType (n : Node) :
    (n.redirect source target).classType = n.classType := rfl

@[simp] theorem Node.isBypassed_redirect (n : Node) :
    (n.redirect source target).isBypassed = n.isBypassed := rfl

theorem Node.connections_redirect (n : Node) :
    (n.redirect source target).connections =
      n.connections.map fun c => (c.1, redirectLink source target c.2) := by
  unfold Node.redirect Node.connections
  rw [List.filterMap_map, List.map_filterMap]
  apply List.filterMap_congr
  intro p _
  obtain ⟨name, v⟩ := p
  cases v with
  | connection s i => simp [InputValue.redirect_connection]
  | literal v => rfl
  | unconnected t => rfl

end Links

namespace Graph

/-- The graph with output 0 of `source` redirected to output 0 of `target` in
every node, and the nodes `extra` appended. -/
def redirected (g : Graph) (source target : String) (extra : List Node) : Graph :=
  { g with nodes := g.nodes.map (Node.redirect source target) ++ extra }

/-- What resolution needs of a redirection to commute with it: a keyed graph; a
live source; a live target that the result has; appended nodes that are live,
new, and read only live nodes; and no bypassed node reading a missing node that
the result has. -/
structure Redirection (g : Graph) (source target : String) (extra : List Node) : Prop where
  keyed : g.Keyed
  source_mem : g.contains source = true
  source_live : g.bypassedIds.contains source = false
  target_mem : (g.redirected source target extra).contains target = true
  target_live : g.bypassedIds.contains target = false
  extra_live : ∀ m ∈ extra, m.isBypassed = false
  extra_fresh : ∀ m ∈ extra, g.contains m.id = false
  extra_reads_live : ∀ m ∈ extra, ∀ x ∈ m.connections, g.bypassedIds.contains x.2.1 = false
  dangling : ∀ n ∈ g.nodes, n.isBypassed = true → ∀ x ∈ n.connections,
    g.contains x.2.1 = false → (g.redirected source target extra).contains x.2.1 = false

variable {g : Graph} {source target : String} {extra : List Node}

theorem bypassedIds_contains_mem {x : String} (hx : g.bypassedIds.contains x = true) :
    g.contains x = true := by
  obtain ⟨n, hn, -, rfl⟩ := mem_bypassedIds.1 (by simpa using hx)
  exact contains_of_mem hn

theorem contains_redirected (x : String) :
    (g.redirected source target extra).contains x = (g.contains x || extra.any (·.id == x)) := by
  simp [redirected, contains, List.any_append, List.any_map, Function.comp_def]

theorem get?_redirected {x : String} (hx : g.contains x = true) :
    (g.redirected source target extra).get? x = (g.get? x).map (Node.redirect source target) := by
  obtain ⟨m, hm, rfl⟩ := contains_iff.1 hx
  unfold get? redirected
  rw [List.find?_append, List.find?_map]
  cases hf : g.nodes.find? (fun n => n.id == m.id) with
  | none =>
    rw [List.find?_eq_none] at hf
    exact absurd (beq_self_eq_true m.id) (hf m hm)
  | some a =>
    show (Option.map (Node.redirect source target) (g.nodes.find? fun n => n.id == m.id)).or _ = _
    rw [hf]
    rfl

theorem stepBack_redirected {t x : String} (hx : g.contains x = true) :
    (g.redirected source target extra).stepBack t x = (g.stepBack t x).map (redirectLink source target) := by
  unfold stepBack
  rw [get?_redirected hx]
  cases g.get? x with
  | none => rfl
  | some n =>
    dsimp only [Option.map_some]
    rw [Node.connections_redirect, List.find?_map, Option.map_map, Option.map_map]
    rfl

/-- A hop back from a bypassed node of a keyed graph follows a connection of a
bypassed node. -/
theorem stepBack_mem (hk : g.Keyed) {t x : String} {up : String × Int}
    (hx : g.bypassedIds.contains x = true) (h : g.stepBack t x = some up) :
    ∃ n ∈ g.nodes, n.isBypassed = true ∧ ∃ name, (name, up.1, up.2) ∈ n.connections := by
  unfold stepBack at h
  cases hget : g.get? x with
  | none =>
    rw [hget] at h
    cases h
  | some n =>
    rw [hget] at h
    obtain ⟨⟨name, s, i⟩, hfound, hup⟩ := Option.map_eq_some_iff.1 h
    obtain ⟨hn, hid⟩ := get?_eq_some hget
    -- the node found under a bypassed id is the bypassed node with that id
    obtain ⟨m, hm, hb, hmid⟩ := mem_bypassedIds.1 (by simpa using hx)
    have hnm : n = m := hk.eq_of_id hn hm (hid.trans hmid.symm)
    subst hnm
    cases hup
    exact ⟨n, hn, hb, name, List.mem_of_find?_eq_some hfound⟩

/-- A walk that ends, ends where it started or at a link that a bypassed node
reads. -/
theorem walkWithin_end (hk : g.Keyed) {t : String} {d : Int} :
    ∀ {fuel : Nat} {current c : String × Int} {depth : Nat},
      g.walkWithin g.bypassedIds t d fuel current depth = some c →
      c = current ∨ ∃ n ∈ g.nodes, n.isBypassed = true ∧ ∃ name, (name, c.1, c.2) ∈ n.connections
  | 0, current, c, depth, h => by
    rw [walkWithin] at h
    split at h
    · cases h
    · split at h
      · cases h
        exact .inl rfl
      · cases h
  | fuel + 1, current, c, depth, h => by
    rw [walkWithin] at h
    split at h
    · cases h
    · split at h
      · cases h
        exact .inl rfl
      · rename_i hb
        split at h
        · cases h
        · rename_i up hup
          rcases walkWithin_end hk h with rfl | hread
          · exact .inr (stepBack_mem hk (by simpa using hb) hup)
          · exact .inr hread

section Commute

variable (hr : g.Redirection source target extra) {t : String} {d : Int}
include hr

theorem Redirection.bypassedIds : (g.redirected source target extra).bypassedIds = g.bypassedIds := by
  have hnone : extra.filter Node.isBypassed = [] :=
    List.filter_eq_nil_iff.2 fun m hm => by simp [hr.extra_live m hm]
  simp [Graph.bypassedIds, redirected, List.filter_append, hnone, List.filter_map, Function.comp_def]

/-- A link into the bypassed set is no link to the source, so redirecting
leaves it; a link out of it stays out of it. -/
theorem Redirection.redirectLink_bypassed {link : String × Int}
    (hb : g.bypassedIds.contains link.1 = true) : redirectLink source target link = link :=
  redirectLink_of_ne fun he => by
    rw [he, hr.source_live] at hb
    cases hb

theorem Redirection.redirectLink_live {link : String × Int}
    (hb : g.bypassedIds.contains link.1 = false) :
    g.bypassedIds.contains (redirectLink source target link).1 = false := by
  rcases @redirectLink_fst source target link with he | he <;> rw [he]
  · exact hb
  · exact hr.target_live

/-- **A walk back commutes with the redirection**: it takes the same hops, and
ends on the target where it ended on the source. -/
theorem Redirection.walkWithin :
    ∀ (fuel : Nat) (current : String × Int) (depth : Nat),
      (g.redirected source target extra).walkWithin g.bypassedIds t d fuel
          (redirectLink source target current) depth =
        (g.walkWithin g.bypassedIds t d fuel current depth).map (redirectLink source target) := by
  intro fuel
  induction fuel with
  | zero =>
    intro current depth
    rw [Graph.walkWithin, Graph.walkWithin]
    by_cases hd : d < (depth : Int)
    · rw [if_pos hd, if_pos hd]
      rfl
    · rw [if_neg hd, if_neg hd]
      cases hb : g.bypassedIds.contains current.1 with
      | true =>
        rw [hr.redirectLink_bypassed hb, hb]
        rfl
      | false =>
        rw [hr.redirectLink_live hb]
        rfl
  | succ fuel ih =>
    intro current depth
    rw [Graph.walkWithin, Graph.walkWithin]
    by_cases hd : d < (depth : Int)
    · rw [if_pos hd, if_pos hd]
      rfl
    · rw [if_neg hd, if_neg hd]
      cases hb : g.bypassedIds.contains current.1 with
      | true =>
        -- a bypassed node is no source: both walks step back the same way
        rw [hr.redirectLink_bypassed hb, hb, stepBack_redirected (bypassedIds_contains_mem hb)]
        cases g.stepBack t current.1 with
        | none => rfl
        | some up => exact ih up (depth + 1)
      | false =>
        rw [hr.redirectLink_live hb]
        rfl

/-- **Rewiring commutes with the redirection** for an input that read a
bypassed node. A walk that ended on a node of the graph ends on the same node,
or on the target where it ended on the source; one that ended on a missing node
ended on one that a bypassed node reads, which is still missing. -/
theorem Redirection.rewireWithin {s : String} {i : Int} (hs : g.bypassedIds.contains s = true) :
    (g.redirected source target extra).rewireWithin g.bypassedIds t d (s, i) =
      (g.rewireWithin g.bypassedIds t d (s, i)).map (redirectLink source target) := by
  unfold Graph.rewireWithin
  have hwalk := hr.walkWithin (t := t) (d := d) (g.bypassedIds.length + 1) (s, i) 0
  rw [hr.redirectLink_bypassed (show g.bypassedIds.contains (s, i).1 = true from hs)] at hwalk
  rw [hwalk]
  cases hw : g.walkWithin g.bypassedIds t d (g.bypassedIds.length + 1) (s, i) 0 with
  | none => rfl
  | some c =>
    obtain ⟨s', i'⟩ := c
    by_cases hsrc : s' = source ∧ i' = 0
    · -- the walk ended on the source, and now ends on the target
      obtain ⟨rfl, rfl⟩ := hsrc
      have hto : redirectLink s' target (s', 0) = (target, 0) := by simp [redirectLink]
      simp only [Option.map_some, hto, hr.target_mem, hr.source_mem, if_true]
    · have hkeep : redirectLink source target (s', i') = (s', i') := by
        unfold redirectLink
        rw [if_neg (by simpa using hsrc)]
      simp only [Option.map_some, hkeep]
      cases hc : g.contains s' with
      | true => simp [contains_redirected, hc, hkeep]
      | false =>
        -- a walk from a bypassed node ends on a link that a bypassed node reads
        have hlive := walkWithin_live hw
        rcases walkWithin_end hr.keyed hw with he | ⟨n, hn, hb, name, hconn⟩
        · cases he
          rw [hs] at hlive
          cases hlive
        · rw [hr.dangling n hn hb _ hconn hc]
          rfl

/-- A redirected input of a redirected node rewires to the redirected inputs,
with the same warnings, under a limit that can be written out. -/
theorem Redirection.rewiredInput (hd : (toString d.natAbs).length ≤ Decimal.maxIntegerDigits)
    (n : Node) (p : String × InputValue) :
    (g.redirected source target extra).rewiredInput g.bypassedIds d (n.redirect source target)
        (p.1, p.2.redirect source target) =
      ((g.rewiredInput g.bypassedIds d n p).1.map fun q => (q.1, q.2.redirect source target),
        (g.rewiredInput g.bypassedIds d n p).2) := by
  obtain ⟨name, v⟩ := p
  cases v with
  | connection s i =>
    cases hb : g.bypassedIds.contains s with
    | true =>
      have hkeep : (InputValue.connection s i).redirect source target = .connection s i := by
        rw [InputValue.redirect_connection,
          hr.redirectLink_bypassed (show g.bypassedIds.contains (s, i).1 = true from hb)]
      have hmem : s ∈ g.bypassedIds := by simpa using hb
      dsimp only
      rw [hkeep]
      unfold Graph.rewiredInput Graph.rewireInput
      cases ht : typeOfInputName name with
      | none => simp [hmem, ht]
      | some t' =>
        have hrw := hr.rewireWithin (t := t') (d := d) (i := i) hb
        cases hc : g.rewireWithin g.bypassedIds t' d (s, i) with
        | none => simp [hmem, ht, rewire_of_digits hd, hrw, hc, bind, Except.bind, pure, Except.pure]
        | some c =>
          simp [hmem, ht, rewire_of_digits hd, hrw, hc, bind, Except.bind, pure, Except.pure,
            InputValue.redirect_connection]
    | false =>
      -- an input reading a live node stays, in both graphs
      have hred : ∀ s' i', (InputValue.connection s i).redirect source target = .connection s' i' →
          g.bypassedIds.contains s' = false := by
        intro s' i' hv
        rw [InputValue.redirect_connection] at hv
        cases hv
        exact hr.redirectLink_live (show g.bypassedIds.contains (s, i).1 = false from hb)
      rw [rewiredInput_keep fun s' i' hv => hred s' i' hv,
        rewiredInput_keep fun s' i' hv => by cases hv; exact hb]
      rfl
  | literal v =>
    rw [rewiredInput_keep ?_, rewiredInput_keep ?_]
    · rfl
    all_goals
      intro s' i' hv
      cases hv
  | unconnected t' =>
    rw [rewiredInput_keep ?_, rewiredInput_keep ?_]
    · rfl
    all_goals
      intro s' i' hv
      cases hv

theorem Redirection.rewiredNode (hd : (toString d.natAbs).length ≤ Decimal.maxIntegerDigits) (n : Node) :
    (g.redirected source target extra).rewiredNode g.bypassedIds d (n.redirect source target) =
      (g.rewiredNode g.bypassedIds d n).redirect source target := by
  have hin : ((n.redirect source target).inputs.flatMap fun p =>
      ((g.redirected source target extra).rewiredInput g.bypassedIds d (n.redirect source target) p).1) =
        (n.inputs.flatMap fun p => (g.rewiredInput g.bypassedIds d n p).1).map
          fun q => (q.1, q.2.redirect source target) := by
    rw [show (n.redirect source target).inputs = n.inputs.map fun p => (p.1, p.2.redirect source target)
      from rfl, List.flatMap_map, List.map_flatMap]
    exact List.flatMap_congr fun p _ => by rw [hr.rewiredInput hd]
  unfold Graph.rewiredNode
  rw [hin]
  rfl

theorem Redirection.rewireWarnings (hd : (toString d.natAbs).length ≤ Decimal.maxIntegerDigits) (n : Node) :
    (g.redirected source target extra).rewireWarnings g.bypassedIds d (n.redirect source target) =
      g.rewireWarnings g.bypassedIds d n := by
  unfold Graph.rewireWarnings
  rw [show (n.redirect source target).inputs = n.inputs.map fun p => (p.1, p.2.redirect source target)
    from rfl, List.flatMap_map]
  exact List.flatMap_congr fun p _ => by rw [hr.rewiredInput hd]

/-- An appended node reads only live nodes, so rewiring keeps its inputs. -/
theorem Redirection.rewiredInput_extra {m : Node} (hm : m ∈ extra) {p : String × InputValue}
    (hp : p ∈ m.inputs) : (g.redirected source target extra).rewiredInput g.bypassedIds d m p = ([p], []) :=
  rewiredInput_keep fun s i hv =>
    hr.extra_reads_live m hm (p.1, s, i) (Node.mem_connections.2 (by rw [← hv]; exact hp))

theorem Redirection.rewiredNode_extra {m : Node} (hm : m ∈ extra) :
    (g.redirected source target extra).rewiredNode g.bypassedIds d m = m := by
  unfold Graph.rewiredNode
  rw [List.flatMap_congr fun p hp => by rw [hr.rewiredInput_extra hm hp], List.flatMap_singleton']

theorem Redirection.rewireWarnings_extra {m : Node} (hm : m ∈ extra) :
    (g.redirected source target extra).rewireWarnings g.bypassedIds d m = [] := by
  unfold Graph.rewireWarnings
  exact List.flatMap_eq_nil_iff.2 fun p hp => by rw [hr.rewiredInput_extra hm hp]

theorem Redirection.liveNodes :
    (g.redirected source target extra).liveNodes = g.liveNodes.map (Node.redirect source target) ++ extra := by
  unfold Graph.liveNodes
  rw [hr.bypassedIds]
  unfold redirected
  rw [List.filter_append, List.filter_map]
  congr 1
  refine List.filter_eq_self.2 fun m hm => ?_
  -- an appended node is new, so it is no bypassed node
  cases hb : g.bypassedIds.contains m.id with
  | false => rfl
  | true =>
    have hnew := hr.extra_fresh m hm
    rw [bypassedIds_contains_mem hb] at hnew
    cases hnew

theorem Redirection.liveGroups : (g.redirected source target extra).liveGroups = g.liveGroups := by
  unfold Graph.liveGroups
  rw [hr.bypassedIds]
  rfl

/-- **Resolution commutes with a redirection**: resolving the redirected graph
resolves the graph, then redirects it and appends the same nodes, with the same
warnings and removed ids, under a limit that can be written out. -/
theorem Redirection.resolved (hd : (toString d.natAbs).length ≤ Decimal.maxIntegerDigits) :
    (g.redirected source target extra).resolved d =
      { graph := (g.resolved d).graph.redirected source target extra
        warnings := (g.resolved d).warnings
        removed := (g.resolved d).removed } := by
  rw [Graph.resolved, Graph.resolved, hr.bypassedIds]
  by_cases hempty : g.bypassedIds.isEmpty = true
  · rw [if_pos hempty, if_pos hempty]
  · rw [if_neg hempty, if_neg hempty]
    have hnodes : (g.liveNodes.map (Node.redirect source target) ++ extra).map
        ((g.redirected source target extra).rewiredNode g.bypassedIds d) =
          (g.liveNodes.map (g.rewiredNode g.bypassedIds d)).map (Node.redirect source target) ++ extra := by
      rw [List.map_append, List.map_map, List.map_map]
      congr 1
      · exact List.map_congr_left fun m _ => hr.rewiredNode hd m
      · exact (List.map_congr_left fun m hm => hr.rewiredNode_extra hm).trans (List.map_id _)
    have hwarn : (g.liveNodes.map (Node.redirect source target) ++ extra).flatMap
        ((g.redirected source target extra).rewireWarnings g.bypassedIds d) =
          g.liveNodes.flatMap (g.rewireWarnings g.bypassedIds d) := by
      rw [List.flatMap_append, List.flatMap_map,
        List.flatMap_eq_nil_iff.2 fun m hm => hr.rewireWarnings_extra hm, List.append_nil]
      exact List.flatMap_congr fun m _ => hr.rewireWarnings hd m
    rw [hr.liveNodes, hr.liveGroups, hnodes, hwarn]
    rfl

end Commute

/-! ## Injecting, then resolving -/

variable {s : Settings}

theorem getLastD_mem_cons (a d : String) (l : List String) : (a :: l).getLastD d ∈ a :: l := by
  rw [List.getLastD_eq_getLast?, List.getLast?_eq_some_getLast (List.cons_ne_nil a l)]
  exact List.getLast_mem _

/-- In a graph redirected to the end of a chain, the chain's first modifier is
the only input left on output 0 of the source. -/
theorem consumersOf_redirected_chain {k : Graph} {src first : String} {rest : List String} {c : Chain}
    (hsrc : src ∉ first :: rest) (hlen : (first :: rest).length = c.length) :
    (k.redirected src ((first :: rest).getLastD src) (chainNodes s src ((first :: rest).zip c))).consumersOf
      src = [(first, "model")] := by
  obtain ⟨sel, c', rfl⟩ : ∃ sel c', c = sel :: c' := List.exists_cons_of_length_eq_add_one hlen.symm
  have hlast : (first :: rest).getLastD src ≠ src := fun he => hsrc (he ▸ getLastD_mem_cons first src rest)
  -- no redirected node reads output 0 of the source any more
  have hold : consumersOf { k with nodes := k.nodes.map (Node.redirect src ((first :: rest).getLastD src)) }
      src = [] := by
    refine List.flatMap_eq_nil_iff.2 fun n hn => List.filterMap_eq_nil_iff.2 fun x hx => ?_
    obtain ⟨n, -, rfl⟩ := List.mem_map.1 hn
    rw [Node.connections_redirect] at hx
    obtain ⟨⟨name, s', i⟩, -, rfl⟩ := List.mem_map.1 hx
    unfold redirectLink
    by_cases hs : (s' == src && i == 0) = true
    · simp only [hs, if_true, Bool.and_true, beq_self_eq_true]
      simpa using hlast
    · simp [hs]
  -- after the first modifier, each reads a modifier of the chain
  have hrest : consumersOf { k with nodes := chainNodes s first (rest.zip c') } src = [] := by
    refine List.flatMap_eq_nil_iff.2 fun n hn => ?_
    obtain ⟨p, hp, hc⟩ := chainNodes_connections n hn
    rw [List.map_fst_zip (by simp at hlen; omega)] at hp
    have hne : p ≠ src := fun he => hsrc (he ▸ hp)
    simp [hc, hne]
  unfold consumersOf redirected
  dsimp only [consumersOf] at hold hrest
  rw [List.flatMap_append, hold, List.nil_append, List.zip_cons_cons, chainNodes, List.flatMap_cons,
    hrest, List.append_nil, show (modifierNode s first sel src).connections = [("model", src, 0)] from rfl]
  simp

/-- Redirecting a keyed graph from a live source to the last of a chain of
modifiers under new ids, fed by the source, is a redirection that resolution
commutes with, as long as no bypassed node reads a missing node the chain
provides. -/
theorem redirection_chain {src : Node} {first : String} {rest : List String} {c : Chain}
    (hk : g.Keyed) (hsrc : src ∈ g.nodes) (hlive : src.isBypassed = false)
    (hlen : (first :: rest).length = c.length) (hfresh : ∀ x ∈ first :: rest, g.contains x = false)
    (hdangling : ∀ n ∈ g.nodes, n.isBypassed = true → ∀ x ∈ n.connections, g.contains x.2.1 = false →
      (g.redirected src.id ((first :: rest).getLastD src.id)
        (chainNodes s src.id ((first :: rest).zip c))).contains x.2.1 = false) :
    g.Redirection src.id ((first :: rest).getLastD src.id) (chainNodes s src.id ((first :: rest).zip c)) := by
  have hsrc_live : g.bypassedIds.contains src.id = false := by
    rw [hk.bypassedIds_contains hsrc, hlive]
  -- a new id is the id of no node, so of no bypassed node
  have hnew_live : ∀ x ∈ first :: rest, g.bypassedIds.contains x = false := fun x hx => by
    cases hb : g.bypassedIds.contains x with
    | false => rfl
    | true =>
      have := hfresh x hx
      rw [bypassedIds_contains_mem hb] at this
      cases this
  have hids : (chainNodes s src.id ((first :: rest).zip c)).map (·.id) = first :: rest := by
    rw [ids_chainNodes, List.map_fst_zip (by omega)]
  have hlast := getLastD_mem_cons first src.id rest
  refine ⟨hk, contains_of_mem hsrc, hsrc_live, ?_, hnew_live _ hlast, chainNodes_live, fun m hm => ?_, ?_,
    hdangling⟩
  · -- the chain's last modifier is appended
    have hin : (first :: rest).getLastD src.id ∈ (chainNodes s src.id ((first :: rest).zip c)).map (·.id) := by
      rw [hids]
      exact hlast
    obtain ⟨m, hm, hid⟩ := List.mem_map.1 hin
    rw [contains_redirected, Bool.or_eq_true, List.any_eq_true]
    exact .inr ⟨m, hm, beq_iff_eq.2 hid⟩
  · have hid : m.id ∈ first :: rest := by
      rw [← hids]
      exact List.mem_map_of_mem hm
    exact hfresh _ hid
  · -- each modifier reads the source or the modifier before it
    intro m hm x hx
    obtain ⟨p, hp, hc⟩ := chainNodes_connections m hm
    rw [hc, List.mem_singleton] at hx
    subst hx
    rcases List.mem_cons.1 hp with rfl | hp
    · exact hsrc_live
    · rw [List.map_fst_zip (by omega)] at hp
      exact hnew_live _ hp

/-- **Injecting a chain, then resolving bypassed nodes, is resolving first and
then redirecting to the chain**, for a keyed graph whose model source is live
and whose bypassed nodes read no missing node that the chain then provides,
under a hop limit of at most `Decimal.maxIntegerDigits` digits. Both
resolutions succeed. The resolved graph has every link to output 0 of the
source pointed at the chain's last node and the chain's modifiers appended, the
first fed by the source and each later one by the one before it; the warnings
and removed ids are those of resolving alone; and the chain's first modifier is
the only input left on output 0 of the source. -/
theorem resolveBypass_injectChain {g : Graph} {c : Chain} {h : Graph} {src : Node} (d : Int)
    (hd : (toString d.natAbs).length ≤ Decimal.maxIntegerDigits)
    (hk : g.Keyed) (hfloor : 0 ≤ s.injectedIdFloor) (hinj : g.injectChain? s c = .ok (some h))
    (hsrc : modelSource? s g = some src) (hlive : src.isBypassed = false)
    (hdangling : ∀ n ∈ g.nodes, n.isBypassed = true → ∀ x ∈ n.connections,
      g.contains x.2.1 = false → h.contains x.2.1 = false) :
    ∃ first rest, (first :: rest).length = c.length ∧ (∀ x ∈ first :: rest, g.contains x = false) ∧
      ∃ r, g.resolveBypass d = .ok r ∧
        h.resolveBypass d =
          .ok { graph := r.graph.redirected src.id ((first :: rest).getLastD src.id)
                  (chainNodes s src.id ((first :: rest).zip c))
                warnings := r.warnings
                removed := r.removed } ∧
        (r.graph.redirected src.id ((first :: rest).getLastD src.id)
          (chainNodes s src.id ((first :: rest).zip c))).consumersOf src.id = [(first, "model")] := by
  obtain ⟨src', ids, hsrc', hlen, hne, -, hfresh, rfl⟩ := injectChain_eq hk hfloor hinj
  rw [hsrc] at hsrc'
  cases hsrc'
  obtain ⟨first, rest, rfl⟩ := List.exists_cons_of_ne_nil hne
  have hred := redirection_chain hk (modelSource?_mem hsrc) hlive hlen hfresh hdangling
  have hsrc_new : src.id ∉ first :: rest := fun hin => by
    have hmem := hred.source_mem
    rw [hfresh _ hin] at hmem
    cases hmem
  refine ⟨first, rest, hlen, hfresh, g.resolved d, resolveBypass_of_digits hd, ?_,
    consumersOf_redirected_chain hsrc_new hlen⟩
  rw [resolveBypass_of_digits hd]
  exact congrArg Except.ok (hred.resolved hd)

/-- A sampler reads the loader only through a bypassed modifier; injecting a
one-modifier chain rewires the bypassed modifier, and resolving then leaves the
sampler reading the chain. -/
theorem resolveBypass_injectChain_through_bypassed :
    Graph.Keyed { nodes := [{ id := "1", classType := "CheckpointLoaderSimple" },
        { id := "3", classType := "LoraLoaderModelOnly", inputs := [("model", .connection "1" 0)], mode := 4 },
        { id := "2", classType := "KSampler", inputs := [("model", .connection "3" 0)] }] } ∧
      (toString (10 : Int).natAbs).length ≤ Decimal.maxIntegerDigits ∧
      ∃ h, Graph.injectChain? {}
          { nodes := [{ id := "1", classType := "CheckpointLoaderSimple" },
            { id := "3", classType := "LoraLoaderModelOnly", inputs := [("model", .connection "1" 0)],
              mode := 4 },
            { id := "2", classType := "KSampler", inputs := [("model", .connection "3" 0)] }] }
          [⟨.str "detail", ⟨0x3FF0000000000000⟩⟩] = .ok (some h) ∧
        ∃ first rest, (first :: rest).length = 1 ∧
          ∃ r, Graph.resolveBypass
              { nodes := [{ id := "1", classType := "CheckpointLoaderSimple" },
                { id := "3", classType := "LoraLoaderModelOnly", inputs := [("model", .connection "1" 0)],
                  mode := 4 },
                { id := "2", classType := "KSampler", inputs := [("model", .connection "3" 0)] }] }
              10 = .ok r ∧
            h.resolveBypass 10 =
              .ok { graph := r.graph.redirected "1" ((first :: rest).getLastD "1")
                      (chainNodes {} "1" ((first :: rest).zip [⟨.str "detail", ⟨0x3FF0000000000000⟩⟩]))
                    warnings := r.warnings
                    removed := r.removed } ∧
            (r.graph.redirected "1" ((first :: rest).getLastD "1")
              (chainNodes {} "1" ((first :: rest).zip [⟨.str "detail", ⟨0x3FF0000000000000⟩⟩]))).consumersOf
              "1" = [(first, "model")] := by
  have hk : Graph.Keyed { nodes := [{ id := "1", classType := "CheckpointLoaderSimple" },
      { id := "3", classType := "LoraLoaderModelOnly", inputs := [("model", .connection "1" 0)], mode := 4 },
      { id := "2", classType := "KSampler", inputs := [("model", .connection "3" 0)] }] } :=
    ⟨by decide, by decide⟩
  have hd : (toString (10 : Int).natAbs).length ≤ Decimal.maxIntegerDigits := by decide
  -- every node a bypassed node reads is there, so no read is filled
  have hclosed : ∀ n ∈ (Graph.mk [{ id := "1", classType := "CheckpointLoaderSimple" },
      { id := "3", classType := "LoraLoaderModelOnly", inputs := [("model", .connection "1" 0)], mode := 4 },
      { id := "2", classType := "KSampler", inputs := [("model", .connection "3" 0)] }] [] [] true []).nodes,
      n.isBypassed = true → ∀ x ∈ n.connections,
        (Graph.mk [{ id := "1", classType := "CheckpointLoaderSimple" },
          { id := "3", classType := "LoraLoaderModelOnly", inputs := [("model", .connection "1" 0)],
            mode := 4 },
          { id := "2", classType := "KSampler", inputs := [("model", .connection "3" 0)] }] [] [] true
          []).contains x.2.1 = true := by
    decide
  obtain ⟨h, hinj⟩ : ∃ h, Graph.injectChain? {}
      { nodes := [{ id := "1", classType := "CheckpointLoaderSimple" },
        { id := "3", classType := "LoraLoaderModelOnly", inputs := [("model", .connection "1" 0)], mode := 4 },
        { id := "2", classType := "KSampler", inputs := [("model", .connection "3" 0)] }] }
      [⟨.str "detail", ⟨0x3FF0000000000000⟩⟩] = .ok (some h) := ⟨_, rfl⟩
  obtain ⟨first, rest, hlen, -, r, hr, hres, hcons⟩ := resolveBypass_injectChain (s := {}) 10 hd hk
    (by decide) hinj rfl rfl fun n hn hb x hx hc => by
      rw [hclosed n hn hb x hx] at hc
      cases hc
  exact ⟨hk, hd, h, hinj, first, rest, hlen, r, hr, hres, hcons⟩

/-- Injecting can fill a missing node that a bypassed node reads: the walk
through the bypassed node then stops at the chain's modifier, and the input
that resolving alone removes with a warning is kept. -/
theorem injectChain_fills_dangling_read :
    ∃ h, Graph.injectChain? {}
        { nodes := [{ id := "1", classType := "CheckpointLoaderSimple" },
          { id := "2", classType := "KSampler", inputs := [("model", .connection "1" 0)] },
          { id := "3", classType := "LoraLoaderModelOnly", inputs := [("model", .connection "100" 0)],
            mode := 4 },
          { id := "4", classType := "KSampler", inputs := [("model", .connection "3" 0)] }] }
        [⟨.str "a", ⟨0x3FF0000000000000⟩⟩] = .ok (some h) ∧
      (h.resolveBypass 10).toOption.map (·.warnings) = some [] ∧
      (Graph.resolveBypass
        { nodes := [{ id := "1", classType := "CheckpointLoaderSimple" },
          { id := "2", classType := "KSampler", inputs := [("model", .connection "1" 0)] },
          { id := "3", classType := "LoraLoaderModelOnly", inputs := [("model", .connection "100" 0)],
            mode := 4 },
          { id := "4", classType := "KSampler", inputs := [("model", .connection "3" 0)] }] } 10).toOption.map
          (·.warnings) =
        some ["Node #4 (KSampler): no MODEL source found through bypassed node #3; connection removed"] :=
  ⟨_, rfl, by decide +kernel, by decide +kernel⟩

end Graph

end NodeFlow
