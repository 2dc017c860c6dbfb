import NodeFlow.Proofs.Graph.Document
import NodeFlow.Proofs.Json.RoundTrip
/-!
# Reading a graph's text back

The text of a graph is its document written in the indented layout. Reading
the text gives the document back as the reader leaves it: names in canonical
form, values reread, repeated names merged (`loadDocument_serialize`).

The names reading looks for (`nodes`, `groups`, `mode`, `class_type`, ...) are
ASCII, and a name reads as one of them only when it was written as it
(`Text.eq_of_canonical_ascii`). So for a sectioned graph reading its text
finds the node map where it was written and reads the groups, and every node
it finds is a written node with the mode it had (`parse_serialize`).
-/

namespace NodeFlow

open Json

namespace Json.Fields

/-- The members of a document as reading its text gives them back. -/
def reread (fs : Fields) : Fields := ofPairs (fs.map fun kv => (Text.canonical kv.1, kv.2.reread))

variable {fs : Fields} {k w : String} {v : Value}

theorem mem_reread (h : (k, v) ∈ reread fs) :
    ∃ k₀ v₀, (k₀, v₀) ∈ fs ∧ k = Text.canonical k₀ ∧ v = v₀.reread := by
  obtain ⟨⟨k₀, v₀⟩, hmem, hkv⟩ := List.mem_map.1 (mem_ofPairs h)
  exact ⟨k₀, v₀, hmem, (Prod.mk.inj hkv).1.symm, (Prod.mk.inj hkv).2.symm⟩

/-- A name in ASCII is among the members read back only where it was written,
with the value read back. -/
theorem mem_reread_of_ascii (hw : ∀ c ∈ w.toList, c.toNat < 0x80) (h : (w, v) ∈ reread fs) :
    ∃ v₀, (w, v₀) ∈ fs ∧ v = v₀.reread := by
  obtain ⟨k₀, v₀, hmem, hk, hv⟩ := mem_reread h
  rw [Text.eq_of_canonical_ascii hw hk.symm] at hmem
  exact ⟨v₀, hmem, hv⟩

theorem get?_reread_of_ascii (hw : ∀ c ∈ w.toList, c.toNat < 0x80) (h : (reread fs).get? w = some v) :
    ∃ v₀, (w, v₀) ∈ fs ∧ v = v₀.reread :=
  mem_reread_of_ascii hw (mem_of_get? h)

/-- A name in ASCII that was written is found in the members read back. -/
theorem exists_get?_reread_of_ascii (hw : ∀ c ∈ w.toList, c.toNat < 0x80) (h : (w, v) ∈ fs) :
    ∃ v', (reread fs).get? w = some v' := by
  have hmem : (Text.canonical w, v.reread) ∈ fs.map fun kv => (Text.canonical kv.1, kv.2.reread) :=
    List.mem_map.2 ⟨(w, v), h, rfl⟩
  rw [Text.canonical_ascii hw] at hmem
  obtain ⟨v', hv'⟩ := exists_mem_ofPairs hmem
  exact exists_get?_of_mem hv'

end Json.Fields

theorem Json.Value.reread_obj (fs : Fields) : (Value.obj fs).reread = .obj (Fields.reread fs) := by
  simp [Value.reread, Fields.reread]

/-- Reading back keeps whether a value is a node. -/
theorem isNodeValue_reread (v : Value) : isNodeValue v.reread = isNodeValue v := by
  cases v with
  | obj fs =>
    rw [Value.reread_obj]
    unfold isNodeValue
    rw [Bool.eq_iff_iff, Fields.has_iff, Fields.has_iff]
    have hascii : ∀ c ∈ "class_type".toList, c.toNat < 0x80 := by simp
    constructor
    · rintro ⟨v, hv⟩
      obtain ⟨v₀, hv₀, -⟩ := Fields.mem_reread_of_ascii hascii hv
      exact ⟨v₀, hv₀⟩
    · rintro ⟨v, hv⟩
      obtain ⟨v', hv'⟩ := Fields.exists_get?_reread_of_ascii hascii hv
      exact ⟨v', Fields.mem_of_get? hv'⟩
  | _ => rfl

namespace Node

theorem mode_of_mem_toFields {n : Node} {v : Value} (h : ("mode", v) ∈ n.toFields) :
    v = .int n.mode := by
  simp [Node.toFields] at h
  rcases h with ⟨-, rfl⟩ | h
  · rfl
  · split at h
    · split at h <;> simp at h
    · simp at h

theorem mode_mem_toFields {n : Node} (h : n.mode ≠ modeActive) : ("mode", .int n.mode) ∈ n.toFields := by
  simp [Node.toFields, h]

/-- **A node's mode is read back from its written object.** -/
theorem readMode_reread (n : Node) : readMode ((Fields.reread n.toFields).get? "mode") = n.mode := by
  have hascii : ∀ c ∈ "mode".toList, c.toNat < 0x80 := by simp
  cases hm : (Fields.reread n.toFields).get? "mode" with
  | none =>
    -- nothing is written for an active node
    by_cases hmode : n.mode = modeActive
    · rw [hmode]
      rfl
    · obtain ⟨v, hv⟩ := Fields.exists_get?_reread_of_ascii hascii (mode_mem_toFields hmode)
      rw [hm] at hv
      cases hv
  | some m =>
    obtain ⟨v₀, hv₀, rfl⟩ := Fields.get?_reread_of_ascii hascii hm
    rw [mode_of_mem_toFields hv₀]
    rfl

end Node

namespace Graph

variable {g : Graph} {schema : Schema}

/-- **The text of a graph reads as its document read back**, when every
integer in it can be written out. -/
theorem loadDocument_serialize (hw : Issue.writable g.toValue = true) :
    loadDocument (.str g.serialize) = .ok (Fields.reread g.toFields) := by
  have hdecode : Value.decode ((Value.obj g.toFields).render (Layout.indented 2 false)) =
      .ok (.obj (Fields.reread g.toFields)) := by
    rw [← Value.reread_obj]
    exact decode_render (Layout.indented_readable 2) _ hw
  unfold loadDocument
  simp only [show g.serialize = (Value.obj g.toFields).render (Layout.indented 2 false) from rfl, hdecode]

/-- Under `nodes` a sectioned graph's document holds only its node map. -/
theorem nodes_of_mem_toFields (hs : g.Sectioned) {v : Value} (h : ("nodes", v) ∈ g.toFields) :
    g.wrapped = true ∧ v = .obj g.nodeMembers := by
  rcases mem_toFields h with ⟨hw, -, rfl⟩ | ⟨hw, n, hn, hid, -⟩ | ⟨-, hk, -⟩ | ⟨-, hk, -⟩ | hm
  · exact ⟨hw, rfl⟩
  · exact absurd (by rw [← hid]; decide) (hs.ids_unreserved hw n hn)
  · exact absurd hk (by decide)
  · exact absurd hk (by decide)
  · exact absurd (show "nodes" ∈ reservedNames by decide) (hs.metadata_unreserved _ hm)

/-- Under `groups` a sectioned graph's document holds only its groups. -/
theorem groups_of_mem_toFields (hs : g.Sectioned) {v : Value} (h : ("groups", v) ∈ g.toFields) :
    v = .arr (g.groups.map Group.toValue) := by
  rcases mem_toFields h with ⟨-, hk, -⟩ | ⟨hw, n, hn, hid, -⟩ | ⟨-, -, rfl⟩ | ⟨-, hk, -⟩ | hm
  · exact absurd hk (by decide)
  · exact absurd (by rw [← hid]; decide) (hs.ids_unreserved hw n hn)
  · rfl
  · exact absurd hk (by decide)
  · exact absurd (show "groups" ∈ reservedNames by decide) (hs.metadata_unreserved _ hm)

/-- Reading a sectioned graph's text finds its node map where it was written. -/
theorem get?_nodes_reread (hs : g.Sectioned) :
    (Fields.reread g.toFields).get? "nodes" =
      if g.wrapped then some (.obj (Fields.reread g.nodeMembers)) else none := by
  have hascii : ∀ c ∈ "nodes".toList, c.toNat < 0x80 := by simp
  cases hw : g.wrapped with
  | true =>
    obtain ⟨v, hv⟩ := Fields.exists_get?_reread_of_ascii hascii (nodes_mem_toFields hw)
    obtain ⟨v₀, hv₀, rfl⟩ := Fields.get?_reread_of_ascii hascii hv
    rw [hv, (nodes_of_mem_toFields hs hv₀).2, Value.reread_obj, if_pos rfl]
  | false =>
    rw [if_neg Bool.false_ne_true]
    cases h : (Fields.reread g.toFields).get? "nodes" with
    | none => rfl
    | some v =>
      obtain ⟨v₀, hv₀, -⟩ := Fields.get?_reread_of_ascii hascii h
      exact absurd (nodes_of_mem_toFields hs hv₀).1 (by rw [hw]; decide)

/-- Reading a sectioned graph's text reads its groups. -/
theorem readGroups_reread (hs : g.Sectioned) :
    ∃ gs, readGroups ((Fields.reread g.toFields).get? "groups") = .ok gs := by
  cases h : (Fields.reread g.toFields).get? "groups" with
  | none => exact ⟨[], rfl⟩
  | some v =>
    obtain ⟨v₀, hv₀, rfl⟩ := Fields.get?_reread_of_ascii (by simp) h
    rw [groups_of_mem_toFields hs hv₀]
    simp only [Value.reread, Value.rereadItems_eq_map, List.map_map]
    apply readGroups_ok
    intro fs hfs raw hraw
    -- each group is written with its member list as an array
    obtain ⟨gr, -, hgr⟩ := List.mem_map.1 hfs
    simp only [Function.comp_apply, Group.toValue, Value.reread_obj, Value.obj.injEq] at hgr
    rw [← hgr] at hraw
    obtain ⟨v₀, hv₀, rfl⟩ := Fields.get?_reread_of_ascii (by simp) hraw
    simp at hv₀
    rw [hv₀]
    exact ⟨_, rfl⟩

/-- A member written for a node is read as a node with the same mode. -/
theorem memberNode_written {wrapped : Bool} (n : Node) {m : Node}
    (hm : memberNode wrapped schema (Text.canonical n.id, (Value.obj n.toFields).reread) = some m) :
    m.id = Text.canonical n.id ∧ m.mode = n.mode := by
  obtain ⟨fs, hfs, -, -, rfl⟩ := memberNode_eq_some hm
  rw [Value.reread_obj, Value.obj.injEq] at hfs
  rw [Node.ofFields_id, Node.ofFields_mode, ← hfs, Node.readMode_reread]
  exact ⟨rfl, rfl⟩

/-- **Every node read from a sectioned graph's text is a written node**, with
its id in canonical form and the mode it had. -/
theorem memberNode_reread (hs : g.Sectioned) {kv : String × Value} {m : Node}
    (hkv : kv ∈ (nodeSection (Fields.reread g.toFields)).2)
    (hm : memberNode (nodeSection (Fields.reread g.toFields)).1 schema kv = some m) :
    ∃ n ∈ g.nodes, m.id = Text.canonical n.id ∧ m.mode = n.mode := by
  obtain ⟨k, v⟩ := kv
  unfold nodeSection at hkv hm
  rw [get?_nodes_reread hs] at hkv hm
  cases hw : g.wrapped with
  | true =>
    -- the node map is read from under `nodes`
    rw [hw, if_pos rfl] at hkv hm
    dsimp only at hkv hm
    obtain ⟨k₀, v₀, hmem, rfl, rfl⟩ := Fields.mem_reread hkv
    obtain ⟨n, hn, hkv₀⟩ := List.mem_map.1 hmem
    rw [← (Prod.mk.inj hkv₀).1, ← (Prod.mk.inj hkv₀).2] at hm
    exact ⟨n, hn, memberNode_written n hm⟩
  | false =>
    -- the node map is the whole document: a node was written as one
    rw [hw, if_neg Bool.false_ne_true] at hkv hm
    dsimp only at hkv hm
    obtain ⟨k₀, v₀, hmem, rfl, rfl⟩ := Fields.mem_reread hkv
    obtain ⟨fs, hfs, hclass, hfree, -⟩ := memberNode_eq_some hm
    rcases mem_toFields hmem with ⟨hw', -⟩ | ⟨-, n, hn, rfl, rfl⟩ | ⟨-, rfl, -⟩ | ⟨-, rfl, -⟩ | hmeta
    · rw [hw] at hw'
      cases hw'
    · exact ⟨n, hn, memberNode_written n hm⟩
    · exact absurd (show Text.canonical "groups" ∈ reservedNames by
        rw [Text.canonical_ascii (by simp)]; decide) (hfree rfl)
    · exact absurd (show Text.canonical "notes" ∈ reservedNames by
        rw [Text.canonical_ascii (by simp)]; decide) (hfree rfl)
    · have hnode : isNodeValue v₀.reread = true := by
        rw [show v₀.reread = .obj fs from hfs]
        exact hclass
      rw [isNodeValue_reread, hs.metadata_not_node hw _ hmeta] at hnode
      cases hnode

/-- **Reading a sectioned graph's text succeeds**, and every node it finds is a
node of the graph, under its id in canonical form and with its mode. -/
theorem parse_serialize (hs : g.Sectioned) (hw : Issue.writable g.toValue = true) :
    ∃ g₂, parse (.str g.serialize) = .ok g₂ ∧
      ∀ m ∈ g₂.nodes, ∃ n ∈ g.nodes, m.id = Text.canonical n.id ∧ m.mode = n.mode := by
  obtain ⟨gs, hgs⟩ := readGroups_reread hs
  have hnodes : ∀ xs, (Fields.reread g.toFields).get? "nodes" ≠ some (.arr xs) := by
    intro xs
    rw [get?_nodes_reread hs]
    split <;> simp
  obtain ⟨g₂, hg₂⟩ : ∃ g₂, ofFields (Fields.reread g.toFields) Schema.empty = .ok g₂ :=
    ⟨_, ofFields_ok.2 ⟨hnodes, gs, hgs, rfl⟩⟩
  refine ⟨g₂, ?_, fun m hm => ?_⟩
  · rw [parse, loadDocument_serialize hw]
    exact hg₂
  · obtain ⟨-, gs₂, -, hgeq⟩ := ofFields_ok.1 hg₂
    rw [hgeq] at hm
    obtain ⟨kv, hkv, hm⟩ := List.mem_filterMap.1 hm
    exact memberNode_reread hs hkv hm

end Graph

end NodeFlow
