import Mathlib.Data.List.Basic
import NodeFlow.Proofs.Graph.Document
import NodeFlow.Proofs.Graph.Links
/-!
# Reading a graph's document back

A document keeps connections and literals in one space: a two-element list of
a text or integer and an integer is read as a connection. So a literal of that
shape does not survive writing and reading; it comes back as the connection it
looks like (`parse_toFields_link_shaped_literal`). Open slots are not written
at all, and a title that is empty or the class type is dropped.

A graph is `Canonical` when its document says everything about it: its inputs
read back (`InputValue.rereads`), its titles are written, its metadata names are
distinct and, at the top, none is a node id, on top of the parts reading sorts a
document into (`Sectioned`). Such a graph reads back from its document as
itself, save the outputs that only a schema supplies (`parse_toFields`).

The proof follows the document's layers: an input value, the inputs of a node,
a node, and then the document, which for a canonical graph is exactly its node
part, its sections and its metadata in order (`toFields_eq`).
-/

namespace NodeFlow

open Json

/-! ## Input values -/

namespace Json.Value

/-- Whether a value has the shape of a connection: a text or an integer, then
an integer. -/
def linkShaped : Value → Bool
  | .arr [.str _, .int _] => true
  | .arr [.int _, .int _] => true
  | _ => false

end Json.Value

namespace InputValue

/-- Whether an input reads back from its document: a connection does, a literal
does unless it has the shape of a connection, and an open slot is not
written. -/
def rereads : InputValue → Bool
  | .connection _ _ => true
  | .literal v => !v.linkShaped
  | .unconnected _ => false

theorem ofValue_of_not_linkShaped {v : Value} (h : v.linkShaped = false) : ofValue v = .literal v := by
  unfold ofValue
  split
  · cases h
  · cases h
  · rfl

/-- **An input that rereads is read back from its encoding.** -/
theorem ofValue_encode {x : InputValue} (h : x.rereads = true) : ofValue x.encode = x := by
  cases x with
  | connection s i => rfl
  | literal v =>
    show ofValue v = .literal v
    exact ofValue_of_not_linkShaped (by simpa [rereads] using h)
  | unconnected t => cases h

end InputValue

namespace Inputs

theorem encode_cons {name : String} {x : InputValue} (hx : x.rereads = true) (ins : Inputs) :
    encode ((name, x) :: ins) = (name, x.encode) :: encode ins := by
  cases x with
  | unconnected t => cases hx
  | _ => rfl

/-- Inputs that all reread are read back from what the document writes of
them, by any reading of the members as `InputValue.ofValue` reads them. -/
theorem map_encode {f : String × Value → String × InputValue}
    (hf : ∀ name v, f (name, v) = (name, InputValue.ofValue v)) :
    ∀ {ins : Inputs}, (∀ p ∈ ins, p.2.rereads = true) → (encode ins).map f = ins
  | [], _ => rfl
  | (name, x) :: ins, h => by
    have hx : x.rereads = true := h (name, x) List.mem_cons_self
    rw [encode_cons hx, List.map_cons, hf, InputValue.ofValue_encode hx,
      map_encode hf fun p hp => h p (List.mem_cons_of_mem _ hp)]

end Inputs

/-! ## Lookups in a document -/

namespace Json.Fields

variable {fs ps : Fields} {k : String} {v : Value}

theorem get?_append : Fields.get? (fs ++ ps) k = (Fields.get? fs k).or (Fields.get? ps k) := by
  unfold get?
  rw [List.find?_append]
  cases fs.find? (fun p => p.1 == k) <;> rfl

theorem get?_of_has (h : fs.has k = false) : Fields.get? fs k = none :=
  get?_eq_none fun v hv => by
    rw [has_iff.2 ⟨v, hv⟩] at h
    cases h

theorem has_append : Fields.has (fs ++ ps) k = (Fields.has fs k || Fields.has ps k) :=
  List.any_append

theorem insert_of_has (h : fs.has k = false) : fs.insert k v = fs ++ [(k, v)] := by
  rw [insert, h, if_neg Bool.false_ne_true]

/-- Inserting members of distinct names none of which is present appends them,
for any step that inserts a member unless its name is present. -/
theorem foldl_insertIfAbsent {f : Fields → String × Value → Fields}
    (hf : ∀ acc k v, f acc (k, v) = insertIfAbsent acc k v) :
    ∀ {ms acc : Fields}, (ms.map (·.1)).Nodup → (∀ kv ∈ ms, acc.has kv.1 = false) →
      ms.foldl f acc = acc ++ ms
  | [], acc, _, _ => (List.append_nil acc).symm
  | (k, v) :: ms, acc, hnd, hfresh => by
    rw [List.map_cons, List.nodup_cons] at hnd
    have hkv : f acc (k, v) = acc ++ [(k, v)] := by
      rw [hf, insertIfAbsent, hfresh (k, v) List.mem_cons_self, if_neg Bool.false_ne_true]
    -- the names still to come are neither in the document nor the one just added
    have hrest : ∀ kv ∈ ms, (acc ++ [(k, v)]).has kv.1 = false := fun kv hkv' => by
      have hne : k ≠ kv.1 := by
        rintro rfl
        exact hnd.1 (List.mem_map.2 ⟨kv, hkv', rfl⟩)
      rw [has_append, hfresh kv (List.mem_cons_of_mem _ hkv')]
      simp [has, hne]
    rw [List.foldl_cons, hkv, foldl_insertIfAbsent hf hnd.2 hrest, List.append_assoc]
    rfl

end Json.Fields

/-! ## Nodes -/

namespace Node

variable {n : Node}

/-- A node's document, when its title is one the document writes. -/
theorem toFields_eq (ht : n.title.all (fun t => !t.isEmpty && t != n.classType) = true) :
    n.toFields = [("class_type", .str n.classType), ("inputs", .obj (Inputs.encode n.inputs))] ++
      (if n.mode != modeActive then [("mode", .int n.mode)] else []) ++
      (n.title.map fun t => ("_meta", .obj [("title", .str t)])).toList := by
  unfold toFields
  cases hn : n.title with
  | none => rfl
  | some t =>
    rw [hn, Option.all_some] at ht
    simp [ht]

theorem has_toFields_classType : Fields.has n.toFields "class_type" = true := by
  simp [toFields, Fields.has]

/-- **A node is read back from its document**, save its outputs, when its
inputs reread and its title is written. -/
theorem ofFields_toFields (hin : ∀ p ∈ n.inputs, p.2.rereads = true)
    (ht : n.title.all (fun t => !t.isEmpty && t != n.classType) = true) :
    Node.ofFields n.id n.toFields Schema.empty = { n with outputs := [] } := by
  have hfs := toFields_eq ht
  have hct : Fields.get? n.toFields "class_type" = some (.str n.classType) := by
    rw [hfs]
    simp [Fields.get?]
  have hins : Fields.get? n.toFields "inputs" = some (.obj (Inputs.encode n.inputs)) := by
    rw [hfs]
    simp [Fields.get?]
  have hmode : readMode (Fields.get? n.toFields "mode") = n.mode := by
    rw [hfs]
    by_cases hm : n.mode = modeActive
    · cases n.title <;> simp [Fields.get?, hm, readMode]
    · simp [Fields.get?, hm, readMode]
  have hmeta : Fields.get? n.toFields "_meta" = n.title.map fun t => .obj [("title", .str t)] := by
    rw [hfs]
    cases n.title <;> by_cases hm : n.mode = modeActive <;> simp [Fields.get?, hm]
  unfold Node.ofFields
  rw [hct, hins, hmode, hmeta]
  dsimp only [Option.map_some, Option.getD_some, Value.display]
  rw [Inputs.map_encode (fun _ _ => rfl) hin]
  -- the title: kept exactly when it is not empty
  cases hn : n.title with
  | none => rfl
  | some t =>
    rw [hn, Option.all_some, Bool.and_eq_true, Bool.not_eq_true'] at ht
    simp [Fields.get?, ht.1, Schema.empty, Schema.find?]

end Node

/-! ## Documents -/

namespace Graph

variable {g : Graph}

/-- The node part of a graph's document: its node map under `nodes`, or its
nodes at the top. -/
def nodePart (g : Graph) : Fields := if g.wrapped then [("nodes", .obj g.nodeMembers)] else g.nodeMembers

/-- The sections of a graph's document after its nodes: the groups and the
notes, each when there is one. -/
def sections (g : Graph) : Fields :=
  (if g.groups.isEmpty then [] else [("groups", .arr (g.groups.map Group.toValue))]) ++
    (if g.notes.isEmpty then [] else [("notes", .arr (g.notes.map Note.toValue))])

/-- A graph whose document says everything about it but its outputs: the parts
reading sorts a document into, inputs that reread, titles the document writes,
and metadata names that are distinct and, at the top, no node id. -/
structure Canonical (g : Graph) : Prop extends g.Sectioned where
  inputs_reread : ∀ n ∈ g.nodes, ∀ p ∈ n.inputs, p.2.rereads = true
  titles_written : ∀ n ∈ g.nodes, n.title.all (fun t => !t.isEmpty && t != n.classType) = true
  metadata_nodup : (g.metadata.map (·.1)).Nodup
  metadata_not_id : g.wrapped = false → ∀ kv ∈ g.metadata, g.contains kv.1 = false

theorem has_nodeMembers (k : String) : Fields.has g.nodeMembers k = g.contains k := by
  unfold nodeMembers Fields.has contains
  rw [List.any_map]
  rfl

/-- A name other than `nodes` that names no node at the top is not in the node
part. -/
theorem has_nodePart {k : String} (hk : k ≠ "nodes") (hid : g.wrapped = false → g.contains k = false) :
    Fields.has g.nodePart k = false := by
  unfold nodePart
  cases hw : g.wrapped with
  | true => simp [Fields.has, Ne.symm hk]
  | false => rw [if_neg Bool.false_ne_true, has_nodeMembers, hid hw]

theorem has_sections {k : String} (hg : k ≠ "groups") (hn : k ≠ "notes") :
    Fields.has g.sections k = false := by
  unfold sections
  split <;> split <;> simp [Fields.has, Ne.symm hg, Ne.symm hn]

/-- A reserved name is no node id at the top of a canonical graph. -/
theorem Canonical.contains_reserved (hc : g.Canonical) (hw : g.wrapped = false) {k : String}
    (hk : k ∈ reservedNames) : g.contains k = false := by
  cases h : g.contains k with
  | false => rfl
  | true =>
    obtain ⟨n, hn, rfl⟩ := contains_iff.1 h
    exact absurd hk (hc.ids_unreserved hw n hn)

/-- **The document of a canonical graph** is its node part, its sections and its
metadata, in that order: no section replaces a member, and every metadata
member is new. -/
theorem toFields_eq (hc : g.Canonical) : g.toFields = g.nodePart ++ g.sections ++ g.metadata := by
  have hgroups : Fields.has g.nodePart "groups" = false :=
    has_nodePart (by decide) fun hw => hc.contains_reserved hw (by decide)
  have hnotes : Fields.has g.nodePart "notes" = false :=
    has_nodePart (by decide) fun hw => hc.contains_reserved hw (by decide)
  have hbase : (if g.notes.isEmpty then (if g.groups.isEmpty then g.nodePart else
      Fields.insert g.nodePart "groups" (.arr (g.groups.map Group.toValue))) else
      Fields.insert (if g.groups.isEmpty then g.nodePart else
        Fields.insert g.nodePart "groups" (.arr (g.groups.map Group.toValue)))
        "notes" (.arr (g.notes.map Note.toValue))) = g.nodePart ++ g.sections := by
    have hnotes' : Fields.has (g.nodePart ++ [("groups", .arr (g.groups.map Group.toValue))]) "notes" =
        false := by
      rw [Fields.has_append, hnotes]
      simp [Fields.has]
    unfold sections
    cases g.groups.isEmpty <;> cases g.notes.isEmpty <;>
      simp [Fields.insert_of_has hgroups, Fields.insert_of_has hnotes, Fields.insert_of_has hnotes']
  have hdoc : g.toFields = g.metadata.foldl
      (fun acc (kv : String × Value) => Fields.insertIfAbsent acc kv.1 kv.2) (g.nodePart ++ g.sections) := by
    rw [← hbase]
    rfl
  rw [hdoc, Fields.foldl_insertIfAbsent (fun _ _ _ => rfl) hc.metadata_nodup]
  -- every metadata name is new: no node part member, and no section
  intro kv hkv
  have hfree := hc.metadata_unreserved kv hkv
  have hreserved : ∀ w ∈ reservedNames, kv.1 ≠ w := fun w hw he => hfree (he ▸ hw)
  rw [Fields.has_append, has_nodePart (hreserved "nodes" (by decide))
    fun hw => hc.metadata_not_id hw kv hkv,
    has_sections (hreserved "groups" (by decide)) (hreserved "notes" (by decide))]
  rfl

theorem Canonical.has_metadata_reserved (hc : g.Canonical) {k : String} (hk : k ∈ reservedNames) :
    Fields.has g.metadata k = false := by
  cases h : Fields.has g.metadata k with
  | false => rfl
  | true =>
    obtain ⟨v, hv⟩ := Fields.has_iff.1 h
    exact absurd hk (hc.metadata_unreserved (k, v) hv)

theorem reserved_of_mem_sections {kv : String × Value} (h : kv ∈ g.sections) : kv.1 ∈ reservedNames := by
  unfold sections at h
  rcases List.mem_append.1 h with h | h
  · -- the groups, when there are any
    split at h
    · exact absurd h List.not_mem_nil
    · rw [List.mem_singleton.1 h]
      simp [reservedNames]
  · -- the notes, when there are any
    split at h
    · exact absurd h List.not_mem_nil
    · rw [List.mem_singleton.1 h]
      simp [reservedNames]

/-! ## Where reading finds each part -/

/-- Under `nodes` the document of a canonical graph holds its node map when it
is wrapped, and nothing at the top. -/
theorem get?_toFields_nodes (hc : g.Canonical) :
    Fields.get? g.toFields "nodes" = if g.wrapped then some (.obj g.nodeMembers) else none := by
  rw [toFields_eq hc, Fields.get?_append, Fields.get?_append,
    Fields.get?_of_has (has_sections (by decide) (by decide)),
    Fields.get?_of_has (hc.has_metadata_reserved (by decide))]
  unfold nodePart
  cases hw : g.wrapped with
  | true => simp [Fields.get?]
  | false =>
    have hnone : Fields.has g.nodeMembers "nodes" = false := by
      rw [has_nodeMembers]
      exact hc.contains_reserved hw (by decide)
    rw [if_neg Bool.false_ne_true, Fields.get?_of_has hnone]
    rfl

/-- Under `groups` and `notes` the document of a canonical graph holds only its
sections. -/
theorem get?_toFields_sections (hc : g.Canonical) {k : String} (hk : k ∈ reservedNames)
    (hn : k ≠ "nodes") :
    Fields.get? g.toFields k = Fields.get? g.sections k := by
  rw [toFields_eq hc, Fields.get?_append, Fields.get?_append,
    Fields.get?_of_has (has_nodePart hn fun hw => hc.contains_reserved hw hk),
    Fields.get?_of_has (hc.has_metadata_reserved hk)]
  cases Fields.get? g.sections k <;> rfl

theorem nodeSection_toFields (hc : g.Canonical) :
    nodeSection g.toFields = (g.wrapped, if g.wrapped then g.nodeMembers else g.toFields) := by
  unfold nodeSection
  rw [get?_toFields_nodes hc]
  cases g.wrapped <;> rfl

/-! ## Reading each part back -/

/-- A fold over numbered items that appends the one each item was written
from gives back what was written. -/
theorem foldlM_zipIdx_map {α β : Type} {F : List β → α × Nat → Outcome (List β)} {f : β → α}
    (hF : ∀ acc b i, F acc (f b, i) = .ok (acc ++ [b])) :
    ∀ (bs : List β) (i : Nat) (acc : List β), ((bs.map f).zipIdx i).foldlM F acc = .ok (acc ++ bs)
  | [], _, acc => by rw [List.append_nil]; rfl
  | b :: bs, i, acc => by
    rw [List.map_cons, List.zipIdx_cons, List.foldlM_cons, hF]
    show ((bs.map f).zipIdx (i + 1)).foldlM F (acc ++ [b]) = _
    rw [foldlM_zipIdx_map hF bs (i + 1) (acc ++ [b]), List.append_assoc]
    rfl

/-- A filter over numbered items that keeps the one each item was written from
gives back what was written. -/
theorem filterMap_zipIdx_map {α β : Type} {F : α × Nat → Option β} {f : β → α}
    (hF : ∀ b i, F (f b, i) = some b) : ∀ (bs : List β) (i : Nat), ((bs.map f).zipIdx i).filterMap F = bs
  | [], _ => rfl
  | b :: bs, i => by
    rw [List.map_cons, List.zipIdx_cons, List.filterMap_cons_some (hF b i),
      filterMap_zipIdx_map hF bs (i + 1)]

theorem memberIds_map_str (xs : List String) : memberIds (xs.map .str) = xs := by
  simp [memberIds, List.filterMap_map]

/-- **Written groups are read back.** -/
theorem readGroups_toValue (gs : List Group) : readGroups (some (.arr (gs.map Group.toValue))) = .ok gs := by
  unfold readGroups
  dsimp only
  rw [foldlM_zipIdx_map ?_ gs 0 []]
  · rfl
  · -- the member list is read back, an empty one as well as one that is not
    intro acc gr i
    cases hm : gr.members.isEmpty with
    | true =>
      have hnil : gr.members = [] := List.isEmpty_iff.1 hm
      simp [Group.toValue, Fields.get?, hnil, Value.truthy, memberIds, Value.display]
      rw [← hnil]
    | false =>
      simp [Group.toValue, Fields.get?, hm, Value.truthy, Value.elements, memberIds_map_str, Value.display]

/-- **Written notes are read back.** -/
theorem readNotes_toValue (ns : List Note) : readNotes (some (.arr (ns.map Note.toValue))) = ns := by
  unfold readNotes
  refine filterMap_zipIdx_map (fun nt i => ?_) ns 0
  simp [Note.toValue, Fields.get?, Value.display]

/-- A member written for a node is read as that node, save its outputs. -/
theorem memberNode_toFields {wrapped : Bool} {n : Node} (hfree : wrapped = false → n.id ∉ reservedNames)
    (hin : ∀ p ∈ n.inputs, p.2.rereads = true)
    (ht : n.title.all (fun t => !t.isEmpty && t != n.classType) = true) :
    memberNode wrapped Schema.empty (n.id, .obj n.toFields) = some { n with outputs := [] } := by
  unfold memberNode
  rw [if_neg ?_]
  · dsimp only
    rw [if_pos Node.has_toFields_classType, Node.ofFields_toFields hin ht]
  · cases wrapped with
    | true => simp
    | false => simpa using hfree rfl

theorem memberNode_of_not_node {wrapped : Bool} {schema : Schema} {kv : String × Value}
    (h : isNodeValue kv.2 = false) : memberNode wrapped schema kv = none := by
  unfold memberNode
  split
  · rfl
  · split
    · rename_i fs hfs
      rw [hfs, isNodeValue] at h
      rw [h]
      rfl
    · rfl

theorem memberNode_reserved {schema : Schema} {kv : String × Value} (hk : kv.1 ∈ reservedNames) :
    memberNode false schema kv = none := by
  unfold memberNode
  rw [if_pos (by simpa using hk)]

theorem filterMap_nodeMembers {wrapped : Bool} (hc : g.Canonical)
    (hfree : wrapped = false → ∀ n ∈ g.nodes, n.id ∉ reservedNames) :
    g.nodeMembers.filterMap (memberNode wrapped Schema.empty) =
      g.nodes.map fun n => { n with outputs := [] } := by
  unfold nodeMembers
  rw [List.filterMap_map]
  exact List.filterMap_eq_map_iff_forall_eq_some.2 fun n hn =>
    memberNode_toFields (fun hw => hfree hw n hn) (hc.inputs_reread n hn) (hc.titles_written n hn)

/-- **Reading the node map of a canonical graph's document gives its nodes**,
save their outputs: at the top the sections and the metadata are no nodes. -/
theorem nodes_toFields (hc : g.Canonical) :
    (nodeSection g.toFields).2.filterMap (memberNode (nodeSection g.toFields).1 Schema.empty) =
      g.nodes.map fun n => { n with outputs := [] } := by
  rw [nodeSection_toFields hc]
  dsimp only
  cases hw : g.wrapped with
  | true =>
    rw [if_pos rfl]
    exact filterMap_nodeMembers hc fun hw' => absurd hw' (by decide)
  | false =>
    have hsections : g.sections.filterMap (memberNode false Schema.empty) = [] :=
      List.filterMap_eq_nil_iff.2 fun kv hkv => memberNode_reserved (reserved_of_mem_sections hkv)
    have hmeta : g.metadata.filterMap (memberNode false Schema.empty) = [] :=
      List.filterMap_eq_nil_iff.2 fun kv hkv => memberNode_of_not_node (hc.metadata_not_node hw kv hkv)
    rw [if_neg Bool.false_ne_true, toFields_eq hc, List.filterMap_append, List.filterMap_append]
    unfold nodePart
    rw [hw, if_neg Bool.false_ne_true, @filterMap_nodeMembers g false hc fun _ => hc.ids_unreserved hw,
      hsections, hmeta, List.append_nil, List.append_nil]

/-- **Reading the metadata of a canonical graph's document gives its
metadata**: the node part and the sections are left out. -/
theorem metadataOf_toFields (hc : g.Canonical) : metadataOf g.wrapped g.toFields = g.metadata := by
  rw [toFields_eq hc]
  unfold metadataOf nodePart
  cases hw : g.wrapped with
  | true =>
    have hsections : g.sections.filter (fun kv => !reservedNames.contains kv.1) = [] :=
      List.filter_eq_nil_iff.2 fun kv hkv => by simp [reserved_of_mem_sections hkv]
    have hmeta : g.metadata.filter (fun kv => !reservedNames.contains kv.1) = g.metadata :=
      List.filter_eq_self.2 fun kv hkv => by simp [hc.metadata_unreserved kv hkv]
    rw [if_pos rfl, if_pos rfl, List.filter_append, List.filter_append, hsections, hmeta]
    simp [reservedNames]
  | false =>
    -- every written node is a node value
    have hnodes : g.nodeMembers.filter (fun kv => !reservedNames.contains kv.1 && !isNodeValue kv.2) = [] :=
      List.filter_eq_nil_iff.2 fun kv hkv => by
        obtain ⟨n, -, rfl⟩ := List.mem_map.1 hkv
        simp [isNodeValue, Node.has_toFields_classType]
    have hsections : g.sections.filter (fun kv => !reservedNames.contains kv.1 && !isNodeValue kv.2) = [] :=
      List.filter_eq_nil_iff.2 fun kv hkv => by simp [reserved_of_mem_sections hkv]
    have hmeta : g.metadata.filter (fun kv => !reservedNames.contains kv.1 && !isNodeValue kv.2) =
        g.metadata :=
      List.filter_eq_self.2 fun kv hkv => by
        simp [hc.metadata_unreserved kv hkv, hc.metadata_not_node hw kv hkv]
    rw [if_neg Bool.false_ne_true, if_neg Bool.false_ne_true, List.filter_append, List.filter_append,
      hnodes, hsections, hmeta]
    rfl

theorem get?_sections_groups :
    Fields.get? g.sections "groups" =
      if g.groups.isEmpty then none else some (.arr (g.groups.map Group.toValue)) := by
  unfold sections
  cases g.groups.isEmpty <;> cases g.notes.isEmpty <;> simp [Fields.get?]

theorem get?_sections_notes :
    Fields.get? g.sections "notes" =
      if g.notes.isEmpty then none else some (.arr (g.notes.map Note.toValue)) := by
  unfold sections
  cases g.groups.isEmpty <;> cases g.notes.isEmpty <;> simp [Fields.get?]

/-- Reading the groups of a canonical graph's document gives its groups: none
when nothing is written. -/
theorem readGroups_toFields (hc : g.Canonical) :
    readGroups (Fields.get? g.toFields "groups") = .ok g.groups := by
  rw [get?_toFields_sections hc (by decide) (by decide), get?_sections_groups]
  cases hg : g.groups.isEmpty with
  | true =>
    rw [List.isEmpty_iff.1 hg]
    rfl
  | false => exact readGroups_toValue g.groups

theorem readNotes_toFields (hc : g.Canonical) : readNotes (Fields.get? g.toFields "notes") = g.notes := by
  rw [get?_toFields_sections hc (by decide) (by decide), get?_sections_notes]
  cases hn : g.notes.isEmpty with
  | true =>
    rw [List.isEmpty_iff.1 hn]
    rfl
  | false => exact readNotes_toValue g.notes

/-- **A canonical graph is read back from its document**, save the outputs
that only a schema supplies. -/
theorem parse_toFields (hc : g.Canonical) :
    parse (.obj g.toFields) = .ok { g with nodes := g.nodes.map fun n => { n with outputs := [] } } := by
  show ofFields g.toFields Schema.empty = _
  refine ofFields_ok.2 ⟨fun xs => ?_, g.groups, readGroups_toFields hc, ?_⟩
  · rw [get?_toFields_nodes hc]
    cases g.wrapped <;> simp
  · rw [nodes_toFields hc, readNotes_toFields hc, nodeSection_toFields hc, metadataOf_toFields hc]

/-- A graph at the top with a titled loader, a bypassed sampler reading it next
to a number and a list of texts, a group, a note and a metadata member is
canonical, and is read back from its document. -/
theorem parse_toFields_sampler_graph :
    ∃ g : Graph, g =
      { nodes :=
          [{ id := "4", classType := "CheckpointLoaderSimple", title := some "Base" },
           { id := "3", classType := "KSampler", mode := 4,
             inputs := [("model", .connection "4" 0), ("seed", .literal (.int 7)),
               ("tags", .literal (.arr [.str "a", .str "b"]))] }],
        groups := [{ id := .int 1, title := "Sampling", members := ["3", "4"] }],
        notes := [{ id := .int 1, title := "Note", content := "draft" }],
        wrapped := false,
        metadata := [("extra", .obj [("ds", .obj [])])] } ∧
      g.Canonical ∧
      parse (.obj g.toFields) = .ok { g with nodes := g.nodes.map fun n => { n with outputs := [] } } := by
  refine ⟨_, rfl, ?hc, parse_toFields ?hc⟩
  exact ⟨⟨by decide, by decide, by decide⟩, by decide, by decide, by decide, by decide⟩

/-- A literal with the shape of a connection is written as that shape, and read
back as the connection it looks like. -/
theorem parse_toFields_link_shaped_literal :
    parse (.obj (Graph.toFields
      { nodes :=
          [{ id := "1", classType := "CLIPTextEncode",
             inputs := [("text", .literal (.arr [.str "2", .int 0]))] }],
        wrapped := false })) =
      .ok
        { nodes := [{ id := "1", classType := "CLIPTextEncode", inputs := [("text", .connection "2" 0)] }],
          wrapped := false } := by
  rfl

end Graph

end NodeFlow
