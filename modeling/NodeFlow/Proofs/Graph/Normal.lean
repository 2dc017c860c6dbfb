import Mathlib.Data.List.Nodup
import NodeFlow.Proofs.Graph.Canonical
/-!
# The normal form of a document

Writing the graph read from a document gives the document's normal form: each
node with only what the graph keeps of it, no title that only repeats the class
type, then the groups and notes, then the metadata.

A schema changes nothing written. It gives a node the outputs of its class and
an open slot for each link-only input it lacks (`Node.ofFields_completeFrom`),
and neither is written (`Node.toFields_completeFrom`).

The graph read from a document whose member names are distinct, less the
titles that only repeat the class type, is `Canonical`
(`canonical_dropClassTitles`). So reading the normal form gives that graph,
and writing it again gives the normal form itself (`parse_normal`).
-/

namespace NodeFlow

open Json

/-! ## What a schema adds -/

namespace InputValue

/-- Reading makes no open slot and no literal of the shape of a connection. -/
theorem rereads_ofValue (v : Value) : (ofValue v).rereads = true := by
  unfold ofValue
  split
  · rfl
  · rfl
  · rename_i hs hi
    show (!v.linkShaped) = true
    unfold Value.linkShaped
    split
    · exact absurd rfl (hs _ _)
    · exact absurd rfl (hi _ _)
    · rfl

end InputValue

namespace Inputs

/-- The inputs with an open slot of the declared type appended for each
link-only declaration whose name they lack. -/
def withSlots (ins : Inputs) (decls : List InputDecl) : Inputs :=
  decls.foldl (fun ins d =>
    if !has ins d.name && d.linkOnly then ins ++ [(d.name, .unconnected d.type)] else ins) ins

theorem encode_append_slot (ins : Inputs) (name type : String) :
    encode (ins ++ [(name, .unconnected type)]) = encode ins := by
  simp [encode, List.filterMap_append]

/-- Open slots are not written. -/
theorem encode_withSlots (ins : Inputs) (decls : List InputDecl) :
    encode (ins.withSlots decls) = encode ins := by
  induction decls generalizing ins with
  | nil => rfl
  | cons d decls ih =>
    refine (ih _).trans ?_
    dsimp only
    split
    · exact encode_append_slot ins d.name d.type
    · rfl

end Inputs

namespace Node

/-- A node completed from a schema as reading completes it: a class the schema
declares gives the node its outputs and an open slot for each link-only input
it lacks. -/
def completeFrom (schema : Schema) (n : Node) : Node :=
  match schema.find? n.classType with
  | some t => { n with outputs := t.outputs, inputs := n.inputs.withSlots t.inputs }
  | none => n

variable {n : Node} {schema : Schema}

@[simp] theorem completeFrom_id : (n.completeFrom schema).id = n.id := by
  unfold completeFrom
  split <;> rfl

@[simp] theorem completeFrom_title : (n.completeFrom schema).title = n.title := by
  unfold completeFrom
  split <;> rfl

/-- **A schema changes nothing a node's document says.** -/
theorem toFields_completeFrom : (n.completeFrom schema).toFields = n.toFields := by
  unfold completeFrom
  split
  · simp only [toFields, Inputs.encode_withSlots]
  · rfl

theorem find?_empty (classType : String) : Schema.empty.find? classType = none := rfl

/-- **Reading a node with a schema completes the node read without one.** -/
theorem ofFields_completeFrom (id : String) (fs : Fields) (schema : Schema) :
    Node.ofFields id fs schema = (Node.ofFields id fs Schema.empty).completeFrom schema :=
  rfl

theorem outputs_ofFields_empty (id : String) (fs : Fields) :
    (Node.ofFields id fs Schema.empty).outputs = [] :=
  rfl

/-- Every input of a node read without a schema reads back: reading makes no
open slot and no literal of the shape of a connection. -/
theorem rereads_ofFields {id : String} {fs : Fields} :
    ∀ p ∈ (Node.ofFields id fs Schema.empty).inputs, p.2.rereads = true := by
  unfold Node.ofFields
  dsimp only
  rw [find?_empty]
  dsimp only
  split
  · intro p hp
    obtain ⟨⟨name, v⟩, -, rfl⟩ := List.mem_map.1 hp
    exact InputValue.rereads_ofValue v
  · exact fun p hp => absurd hp List.not_mem_nil

/-- Reading never gives an empty title. -/
theorem title_ofFields {id : String} {fs : Fields} {t : String}
    (h : (Node.ofFields id fs schema).title = some t) : t.isEmpty = false := by
  rw [ofFields_completeFrom, completeFrom_title] at h
  unfold Node.ofFields at h
  dsimp only at h
  rw [find?_empty] at h
  dsimp only at h
  -- the title is read only from a text under `_meta`, and only when it is not empty
  split at h
  · split at h
    · split at h
      · cases h
      · rename_i hne
        cases h
        simpa using hne
    · cases h
  · cases h

/-- The title a document writes: none when it only repeats the class type. -/
def dropClassTitle (n : Node) : Node := { n with title := n.title.filter (· != n.classType) }

@[simp] theorem dropClassTitle_id : n.dropClassTitle.id = n.id := rfl

/-- A title that only repeats the class type is not written. -/
theorem toFields_dropClassTitle : n.dropClassTitle.toFields = n.toFields := by
  unfold dropClassTitle toFields
  cases h : n.title with
  | none => rfl
  | some t => by_cases ht : t = n.classType <;> simp [ht, Option.filter]

end Node

namespace Graph

variable {g : Graph} {doc : Fields} {schema : Schema}

/-- The graph with every node completed from a schema. -/
def completeFrom (schema : Schema) (g : Graph) : Graph :=
  { g with nodes := g.nodes.map (Node.completeFrom schema) }

/-- The graph with every title that only repeats the class type dropped. -/
def dropClassTitles (g : Graph) : Graph := { g with nodes := g.nodes.map Node.dropClassTitle }

/-- A document depends on the nodes only through their ids and their own
documents. -/
theorem toFields_map_nodes {f : Node → Node} (hid : ∀ n, (f n).id = n.id)
    (hf : ∀ n, (f n).toFields = n.toFields) : ({ g with nodes := g.nodes.map f } : Graph).toFields = g.toFields := by
  simp [toFields, List.map_map, Function.comp_def, hid, hf]

@[simp] theorem toFields_completeFrom : (g.completeFrom schema).toFields = g.toFields :=
  toFields_map_nodes (fun _ => Node.completeFrom_id) fun _ => Node.toFields_completeFrom

@[simp] theorem toFields_dropClassTitles : g.dropClassTitles.toFields = g.toFields :=
  toFields_map_nodes (fun _ => Node.dropClassTitle_id) fun _ => Node.toFields_dropClassTitle

theorem memberNode_completeFrom {wrapped : Bool} {kv : String × Value} :
    memberNode wrapped schema kv = (memberNode wrapped Schema.empty kv).map (Node.completeFrom schema) := by
  unfold memberNode
  split
  · rfl
  · split
    · split
      · rw [Option.map_some, Node.ofFields_completeFrom]
      · rfl
    · rfl

/-- **Reading a document with a schema completes the graph read without one.** -/
theorem ofFields_completeFrom (h : ofFields doc Schema.empty = .ok g) :
    ofFields doc schema = .ok (g.completeFrom schema) := by
  obtain ⟨hn, gs, hgs, rfl⟩ := ofFields_ok.1 h
  refine ofFields_ok.2 ⟨hn, gs, hgs, ?_⟩
  simp only [completeFrom, List.map_filterMap]
  congr 1
  exact List.filterMap_congr fun _ _ => memberNode_completeFrom.symm

/-- A node read from a document is read from a member of its node map. -/
theorem mem_ofFields_nodes (h : ofFields doc schema = .ok g) {n : Node} (hn : n ∈ g.nodes) :
    ∃ fs, (n.id, .obj fs) ∈ (nodeSection doc).2 ∧ Fields.has fs "class_type" = true ∧
      n = Node.ofFields n.id fs schema := by
  obtain ⟨-, gs, -, rfl⟩ := ofFields_ok.1 h
  obtain ⟨kv, hkv, hn⟩ := List.mem_filterMap.1 hn
  obtain ⟨fs, hfs, hc, -, rfl⟩ := memberNode_eq_some hn
  rw [Node.ofFields_id]
  exact ⟨fs, hfs ▸ hkv, hc, rfl⟩

theorem nodeSection_of_top (h : (nodeSection doc).1 = false) : (nodeSection doc).2 = doc := by
  unfold nodeSection at h ⊢
  split
  · rename_i heq
    rw [heq] at h
    cases h
  · rfl

theorem Sectioned.dropClassTitles (hs : g.Sectioned) : g.dropClassTitles.Sectioned where
  metadata_unreserved := hs.metadata_unreserved
  ids_unreserved hw n hn := by
    obtain ⟨m, hm, rfl⟩ := List.mem_map.1 hn
    exact hs.ids_unreserved hw m hm
  metadata_not_node := hs.metadata_not_node

/-- **The graph read from a document with distinct member names is
canonical** once its titles that only repeat the class type are dropped. -/
theorem canonical_dropClassTitles (hd : (doc.map (·.1)).Nodup) (h : ofFields doc Schema.empty = .ok g) :
    g.dropClassTitles.Canonical where
  toSectioned := (ofFields_sectioned h).dropClassTitles
  inputs_reread n hn := by
    obtain ⟨m, hm, rfl⟩ := List.mem_map.1 hn
    obtain ⟨fs, -, -, hfs⟩ := mem_ofFields_nodes h hm
    have hre := @Node.rereads_ofFields m.id fs
    rw [← hfs] at hre
    exact hre
  titles_written n hn := by
    obtain ⟨m, hm, rfl⟩ := List.mem_map.1 hn
    obtain ⟨fs, -, -, hfs⟩ := mem_ofFields_nodes h hm
    unfold Node.dropClassTitle
    cases ht : m.title with
    | none => rfl
    | some t =>
      have hne : t.isEmpty = false := Node.title_ofFields (hfs ▸ ht)
      by_cases hc : t = m.classType <;> simp [hc, hne, Option.filter]
  metadata_nodup := by
    obtain ⟨-, gs, -, rfl⟩ := ofFields_ok.1 h
    -- the metadata is a part of the document, in order
    have hsub : List.Sublist (metadataOf (nodeSection doc).1 doc) doc := by
      unfold metadataOf
      split <;> exact List.filter_sublist
    exact hd.sublist (hsub.map _)
  metadata_not_id hw kv hkv := by
    obtain ⟨-, gs, -, hg⟩ := ofFields_ok.1 h
    have hw' : (nodeSection doc).1 = false := by rw [hg] at hw; exact hw
    cases hc : g.dropClassTitles.contains kv.1 with
    | false => rfl
    | true =>
      -- a node under the same name: at the top, both are that one member
      obtain ⟨n, hn, hid⟩ := contains_iff.1 hc
      obtain ⟨m, hm, rfl⟩ := List.mem_map.1 hn
      obtain ⟨fs, hfs, hcls, -⟩ := mem_ofFields_nodes h hm
      rw [nodeSection_of_top hw'] at hfs
      have hmeta : kv ∈ metadataOf false doc := by
        rw [← hw']
        rw [hg] at hkv
        exact hkv
      unfold metadataOf at hmeta
      obtain ⟨hkd, -, hflag⟩ : kv ∈ doc ∧ kv.1 ∉ reservedNames ∧ isNodeValue kv.2 = false := by
        simpa using hmeta
      have heq : (m.id, Value.obj fs) = kv := List.inj_on_of_nodup_map hd hfs hkd hid
      rw [← heq] at hflag
      simp [isNodeValue, hcls] at hflag

theorem map_clearOutputs (hout : ∀ n ∈ g.nodes, n.outputs = []) :
    ({ g with nodes := g.nodes.map fun n => { n with outputs := [] } } : Graph) = g := by
  have hnodes : (g.nodes.map fun n => { n with outputs := [] }) = g.nodes := by
    conv => rhs; rw [← List.map_id g.nodes]
    refine List.map_congr_left fun n hn => ?_
    rw [← hout n hn]
    rfl
  rw [hnodes]

/-- **A document's normal form.** For a document whose member names are
distinct and that reads: writing the graph it reads and reading that back
gives the same text again; what it reads back is the graph first read, less
the titles that only repeat the class type; and reading the document with any
schema writes the same normal form. -/
theorem parse_normal {d : Fields} (hd : (d.map (·.1)).Nodup) (hg : parse (.obj d) = .ok g) :
    (parse (.obj g.toFields)).map toFields = .ok g.toFields ∧
      parse (.obj g.toFields) = .ok g.dropClassTitles ∧
      ∀ schema, (parse (.obj d) schema).map toFields = .ok g.toFields := by
  have hread : ofFields d Schema.empty = .ok g := hg
  have hc := canonical_dropClassTitles hd hread
  -- every node read without a schema has no outputs, and dropping titles keeps that
  have hout : ∀ n ∈ g.dropClassTitles.nodes, n.outputs = [] := fun n hn => by
    obtain ⟨m, hm, rfl⟩ := List.mem_map.1 hn
    obtain ⟨fs, -, -, hfs⟩ := mem_ofFields_nodes hread hm
    rw [hfs]
    exact Node.outputs_ofFields_empty m.id fs
  have hback : parse (.obj g.toFields) = .ok g.dropClassTitles := by
    rw [← toFields_dropClassTitles, parse_toFields hc, map_clearOutputs hout]
  refine ⟨?_, hback, fun schema => ?_⟩
  · rw [hback]
    exact congrArg Except.ok toFields_dropClassTitles
  · show (ofFields d schema).map toFields = _
    rw [ofFields_completeFrom hread]
    exact congrArg Except.ok toFields_completeFrom

/-- A document at the top with a sampler titled by its own class type, a
bypassed loader with a title of its own and a metadata member: it reads as the
graph below, and its normal form drops the sampler's title and is its own
normal form. -/
theorem parse_normal_titled_sampler :
    ∃ (d : Fields) (g : Graph),
      d = [("3", .obj [("class_type", .str "KSampler"),
              ("inputs", .obj [("seed", .int 7), ("model", .arr [.int 4, .int 0])]),
              ("_meta", .obj [("title", .str "KSampler")])]),
           ("4", .obj [("class_type", .str "CheckpointLoaderSimple"), ("mode", .int 4),
              ("_meta", .obj [("title", .str "Base")])]),
           ("extra", .obj [("ds", .int 1)])] ∧
      g = { nodes :=
              [{ id := "3", classType := "KSampler", title := some "KSampler",
                 inputs := [("seed", .literal (.int 7)), ("model", .connection "4" 0)] },
               { id := "4", classType := "CheckpointLoaderSimple", title := some "Base", mode := 4 }],
            wrapped := false,
            metadata := [("extra", .obj [("ds", .int 1)])] } ∧
      (d.map (·.1)).Nodup ∧ parse (.obj d) = .ok g ∧
      ((parse (.obj g.toFields)).map toFields = .ok g.toFields ∧
        parse (.obj g.toFields) = .ok g.dropClassTitles ∧
        ∀ schema, (parse (.obj d) schema).map toFields = .ok g.toFields) := by
  have hd : ((["3", "4", "extra"] : List String)).Nodup := by decide
  refine ⟨_, _, rfl, rfl, hd, by rfl, parse_normal hd (by rfl)⟩

end Graph

end NodeFlow
