import NodeFlow.Proofs.Bypass.Resolve
import NodeFlow.Proofs.Graph.Reread
/-!
# Resolving bypassed nodes in text

`resolveBypassText` reads a workflow, resolves its bypassed nodes and writes
the result back; text that does not read, or holds no bypassed node, comes back
as it is. Running it on its own output gives that output back
(`resolveBypassText_idem`): the result of a resolution has no bypassed node,
and reading its written text finds only its nodes with their modes
(`parse_serialize`), so the second run finds nothing to resolve, under any hop
limit.

Resolution keeps what reading guarantees of a graph (`resolved_sectioned`),
and whether it changes anything does not depend on the hop limit
(`changed_resolved`). The laws of resolution are gathered in
`resolveBypass_clean_and_idempotent`.
-/

namespace NodeFlow

open Json

namespace Graph

variable {g : Graph} {d : Int}

/-- Resolution changes the graph exactly when it has a bypassed node, under
any hop limit. -/
theorem changed_resolved (g : Graph) (d : Int) :
    (g.resolved d).changed = !g.bypassedIds.isEmpty := by
  unfold resolved
  split
  · rename_i h
    rw [h]
    rfl
  · rfl

/-- **Resolution keeps a graph sectioned**: it keeps the metadata and the
form, and only drops nodes or rewires their inputs. -/
theorem resolved_sectioned (hs : g.Sectioned) : (g.resolved d).graph.Sectioned := by
  unfold resolved
  split
  · exact hs
  · refine ⟨hs.metadata_unreserved, fun hw m hm => ?_, hs.metadata_not_node⟩
    obtain ⟨n, hn, rfl⟩ := List.mem_map.1 hm
    exact hs.ids_unreserved hw n (mem_liveNodes.1 hn).1

/-- Reading a workflow gives a sectioned graph. -/
theorem parse_sectioned {src : Value} {schema : Schema} (h : parse src schema = .ok g) : g.Sectioned := by
  unfold parse at h
  cases hload : loadDocument src with
  | error e =>
    rw [hload] at h
    cases h
  | ok doc =>
    rw [hload] at h
    exact ofFields_sectioned h

/-- The text of a resolved graph reads as a graph with no bypassed node. -/
theorem parse_serialize_resolved (hs : g.Sectioned)
    (hw : Issue.writable (g.resolved d).graph.toValue = true) :
    ∃ g₂, parse (.str (g.resolved d).graph.serialize) = .ok g₂ ∧
      ∀ m ∈ g₂.nodes, m.isBypassed = false := by
  obtain ⟨g₂, hparse, hnodes⟩ := parse_serialize (resolved_sectioned hs) hw
  refine ⟨g₂, hparse, fun m hm => ?_⟩
  obtain ⟨n, hn, -, hmode⟩ := hnodes m hm
  unfold Node.isBypassed
  rw [hmode]
  exact resolved_no_bypassed n hn

end Graph

/-- Text that reads as a graph which resolution leaves as it is comes back
unchanged. -/
theorem resolveBypassText_of_unchanged {t : String} {g : Graph} {d : Int} {r : BypassOutcome}
    (hp : Graph.parse (.str t) = .ok g) (hr : g.resolveBypass d = .ok r) (hb : r.changed = false) :
    resolveBypassText t d = .ok (t, r.warnings) := by
  unfold resolveBypassText
  rw [hp]
  simp [hr, hb, bind, Except.bind]

/-- Text that reads as a graph with no bypassed node comes back unchanged,
under any hop limit. -/
theorem resolveBypassText_of_none {t : String} {g : Graph} (hp : Graph.parse (.str t) = .ok g)
    (hnone : ∀ m ∈ g.nodes, m.isBypassed = false) (d : Int) : resolveBypassText t d = .ok (t, []) :=
  resolveBypassText_of_unchanged hp (Graph.resolveBypass_of_none hnone d) rfl

/-- **Resolving bypassed nodes in text is idempotent**: run again, under any
hop limit, on text it returned, it returns that text. -/
theorem resolveBypassText_idem {t t' : String} {d : Int} {ws : List String}
    (h : resolveBypassText t d = .ok (t', ws)) (d' : Int) :
    ∃ ws', resolveBypassText t' d' = .ok (t', ws') := by
  unfold resolveBypassText at h
  split at h
  · -- text that does not read comes back with the reason, whatever the limit
    rename_i e hparse
    split at h
    · rename_i hkind
      cases h
      refine ⟨[e.message.display], ?_⟩
      unfold resolveBypassText
      rw [hparse]
      simp only [hkind, if_true]
    · cases h
  · cases h
  · rename_i g hparse
    obtain ⟨r, hr, h⟩ := exists_of_bind_eq_ok h
    obtain rfl := Graph.resolveBypass_eq_ok hr
    by_cases hc : (g.resolved d).changed = true
    · -- the resolved graph was written; its text holds no bypassed node
      rw [if_pos hc] at h
      split at h
      · rename_i hw
        cases h
        obtain ⟨g₂, hparse₂, hnodes⟩ := Graph.parse_serialize_resolved (Graph.parse_sectioned hparse) hw
        exact ⟨_, resolveBypassText_of_none hparse₂ hnodes d'⟩
      · cases h
    · -- nothing was resolved, so no node is bypassed and nothing is under another limit either
      rw [if_neg hc] at h
      cases h
      have hempty : g.bypassedIds = [] := by
        rw [Graph.changed_resolved] at hc
        simpa using hc
      exact ⟨_, resolveBypassText_of_none hparse (Graph.bypassedIds_eq_nil_iff.1 hempty) d'⟩

namespace Graph

/-- **The laws of bypass resolution**, for every graph and hop limit: under a
limit of at most `Decimal.maxIntegerDigits` digits resolution succeeds, and
whatever it gives has no bypassed node; every dangling connection of the result
is one the graph had, so a closed graph stays closed; groups keep only live
members and none is left empty once a node is removed; resolving the result
again, under any limit, gives it back with no warnings and no removed ids; and
on text, a second run on what a run returned returns it unchanged. -/
theorem resolveBypass_clean_and_idempotent (g : Graph) (d : Int) :
    ((toString d.natAbs).length ≤ Decimal.maxIntegerDigits → ∃ r, g.resolveBypass d = .ok r) ∧
      (∀ r, g.resolveBypass d = .ok r →
        (∀ m ∈ r.graph.nodes, m.isBypassed = false) ∧
          g.DanglingFrom r.graph ∧
          (g.Closed → r.graph.Closed) ∧
          (∀ gr ∈ r.graph.groups,
            (∀ m ∈ gr.members, m ∉ g.bypassedIds) ∧ (g.bypassedIds ≠ [] → gr.members ≠ [])) ∧
          (∀ d', r.graph.resolveBypass d' = .ok { graph := r.graph })) ∧
      (∀ (t t' : String) (ws : List String) (d' : Int), resolveBypassText t d = .ok (t', ws) →
        ∃ ws', resolveBypassText t' d' = .ok (t', ws')) := by
  refine ⟨fun hd => ⟨_, resolveBypass_of_digits hd⟩, fun r hr => ?_, fun _ _ _ d' h => resolveBypassText_idem h d'⟩
  obtain rfl := resolveBypass_eq_ok hr
  exact ⟨resolved_no_bypassed, resolved_danglingFrom, resolved_danglingFrom.closed, resolved_groups,
    resolveBypass_idem hr⟩

end Graph

end NodeFlow
