import NodeFlow.Proofs.Graph.Normal
import NodeFlow.Proofs.Graph.Passes
import NodeFlow.Layout.Import
import NodeFlow.Proofs.Outcome
/-!
# Reading an imported layout back

A workflow saved by the graph editor is imported by its own importer, and the
canonical document of the graph it gives is read by the canonical reader. The
two agree on everything the document says, but not on open slots: the layout
reader makes none, while reading with a schema adds one for each link-only
input of a node's class that the node lacks.

Every node the importer makes is `Layout.Imported`: it has no open slot, its
title is one a document writes, and its outputs are the ones its class
declares. So the graph it builds is `Layout.ImportedGraph`, and canonical when
none of its literals has the shape of a connection (`ImportedGraph.canonical`).
Reading its document back with the same schema then gives the graph completed
from the schema (`importWorkflow_toFields_layout`), which is the graph itself
exactly when each node already has every link-only input of its class.
-/

namespace NodeFlow

open Json

namespace InputValue

/-- Whether an input is an open slot, which only a schema makes. -/
def isSlot : InputValue → Bool
  | .unconnected _ => true
  | _ => false

/-- An input that is no open slot rereads unless it is a literal of the shape
of a connection. -/
theorem rereads_of_isSlot {x : InputValue} (hs : x.isSlot = false)
    (hl : ∀ v, x = .literal v → v.linkShaped = false) : x.rereads = true := by
  cases x with
  | literal v => simpa [rereads] using hl v rfl
  | connection s i => rfl
  | unconnected t => cases hs

end InputValue

namespace Inputs

/-- Inputs none of which is an open slot. -/
def NoSlot (ins : Inputs) : Prop := ∀ p ∈ ins, p.2.isSlot = false

variable {ins : Inputs}

theorem NoSlot.set (h : NoSlot ins) {name : String} {v : InputValue} (hv : v.isSlot = false) :
    NoSlot (set ins name v) := fun p hp => by
  rcases Inputs.mem_set hp with hp | rfl
  · exact h p hp
  · exact hv

theorem NoSlot.filter (h : NoSlot ins) (f : String × InputValue → Bool) : NoSlot (ins.filter f) :=
  fun p hp => h p (List.mem_of_mem_filter hp)

theorem withSlots_cons (d : InputDecl) (decls : List InputDecl) :
    ins.withSlots (d :: decls) =
      (if !has ins d.name && d.linkOnly then ins ++ [(d.name, .unconnected d.type)] else ins).withSlots decls :=
  rfl

/-- Completing from declarations keeps every name present. -/
theorem has_withSlots_of_has {x : String} :
    ∀ (decls : List InputDecl) {ins : Inputs}, ins.has x = true → (ins.withSlots decls).has x = true
  | [], _, h => h
  | d :: decls, ins, h => by
    rw [withSlots_cons]
    apply has_withSlots_of_has decls
    split
    · simp only [has, List.any_append] at h ⊢
      rw [h, Bool.true_or]
    · exact h

/-- Completing from declarations gives every link-only one a name. -/
theorem has_withSlots {d : InputDecl} (hl : d.linkOnly = true) :
    ∀ {decls : List InputDecl} {ins : Inputs}, d ∈ decls → (ins.withSlots decls).has d.name = true
  | e :: decls, ins, hd => by
    rw [withSlots_cons]
    rcases List.mem_cons.1 hd with rfl | hd
    · -- the declaration itself: its slot is added unless the name is present
      apply has_withSlots_of_has
      split
      · simp [has]
      · rename_i hno
        simpa [hl] using hno
    · exact has_withSlots hl hd

/-- Inputs that name every link-only declaration are complete. -/
theorem withSlots_of_has :
    ∀ {decls : List InputDecl}, (∀ d ∈ decls, d.linkOnly = true → ins.has d.name = true) → ins.withSlots decls = ins
  | [], _ => rfl
  | d :: decls, h => by
    have hd : (!has ins d.name && d.linkOnly) = false := by
      cases hl : d.linkOnly with
      | false => rw [Bool.and_false]
      | true => rw [h d List.mem_cons_self hl]; rfl
    rw [withSlots_cons, hd, if_neg Bool.false_ne_true]
    exact withSlots_of_has fun e he => h e (List.mem_cons_of_mem d he)

/-- **Completing inputs changes nothing exactly when they name every link-only
declaration.** -/
theorem withSlots_eq_self_iff {decls : List InputDecl} :
    ins.withSlots decls = ins ↔ ∀ d ∈ decls, d.linkOnly = true → ins.has d.name = true := by
  constructor
  · intro h d hd hl
    rw [← h]
    exact has_withSlots hl hd
  · exact withSlots_of_has

end Inputs

/-- An object is imported as a layout or read as a canonical document. -/
theorem importWorkflow_obj (doc : Fields) (schema : Schema) :
    importWorkflow (.obj doc) schema =
      if Layout.isLayout doc then Layout.importLayout doc schema else (Graph.ofFields doc schema).map (·, []) :=
  rfl

namespace Layout

/-- Widget values only set literals. -/
theorem noSlot_assignWidgets (ds : List InputDecl) (vs : List Value) {ins : Inputs}
    (h : Inputs.NoSlot ins) : Inputs.NoSlot (assignWidgets ds vs ins) := by
  fun_induction assignWidgets ds vs ins with
  | case1 => exact h
  | case2 => exact h
  | case3 _ _ _ _ _ _ ih => exact ih h
  | case4 d _ v _ ins _ ins' _ ih =>
    refine ih ?_
    -- a value is set unless it is null
    simp only [ins']
    split
    · exact h
    · exact h.set rfl

theorem noSlot_assignNamedWidgets (values : Fields) (defs : List InputDecl) {ins : Inputs}
    (h : Inputs.NoSlot ins) : Inputs.NoSlot (assignNamedWidgets values defs ins) := by
  unfold assignNamedWidgets
  induction values generalizing ins with
  | nil => exact h
  | cons kv values ih =>
    rw [List.foldl_cons]
    apply ih
    dsimp only
    split
    · split
      · exact h
      · exact h.set rfl
    · exact h

/-- A node as the importer makes it with a schema: no open slot, a title the
document writes, and the outputs the schema declares for its class. -/
structure Imported (schema : Schema) (n : Node) : Prop where
  noSlot : n.inputs.NoSlot
  title_written : n.title.all (fun t => !t.isEmpty && t != n.classType) = true
  outputs_declared : n.outputs = ((schema.find? n.classType).map (·.outputs)).getD []

theorem Imported.filterInputs {schema : Schema} {n : Node} (hn : Imported schema n)
    (f : String × InputValue → Bool) : Imported schema { n with inputs := n.inputs.filter f } :=
  ⟨hn.noSlot.filter f, hn.title_written, hn.outputs_declared⟩

/-- A graph as the importer builds it with a schema: its nodes held under
`nodes`, no metadata, and every node imported. -/
structure ImportedGraph (schema : Schema) (g : Graph) : Prop where
  wrapped : g.wrapped = true
  metadata : g.metadata = []
  imported : ∀ n ∈ g.nodes, Imported schema n

theorem ImportedGraph.insert {schema : Schema} {g : Graph} {n : Node} (hg : ImportedGraph schema g)
    (hn : Imported schema n) : ImportedGraph schema (g.insert n) := by
  unfold Graph.insert
  split
  · refine ⟨hg.wrapped, hg.metadata, fun m hm => ?_⟩
    obtain ⟨m', hm', rfl⟩ := List.mem_map.1 hm
    split
    · exact hn
    · exact hg.imported m' hm'
  · refine ⟨hg.wrapped, hg.metadata, fun m hm => ?_⟩
    rcases List.mem_append.1 hm with hm | hm
    · exact hg.imported m hm
    · rw [List.mem_singleton.1 hm]
      exact hn

namespace Document

variable {d : Document} {schema : Schema}

/-- **Each node the importer makes is imported**, under its id and class type. -/
theorem node_imported {id : Int} {type : String} {raw : Fields} {n : Node} {ws : List String}
    (h : d.node schema id type raw = .ok (n, ws)) :
    Imported schema n ∧ n.classType = type ∧ n.id = toString id := by
  unfold node at h
  dsimp only at h
  obtain ⟨slots, -, h⟩ := exists_of_bind_eq_ok h
  obtain ⟨ins, hins, h⟩ := exists_of_bind_eq_ok h
  cases h
  refine ⟨⟨?_, ?_, rfl⟩, rfl, rfl⟩
  · -- widget values set literals, and each linked slot sets a connection
    refine foldlM_except_rec (motive := Inputs.NoSlot) (fun ins hi slot ins' hstep => ?_) slots _ ins hins ?_
    · split at hstep
      · split at hstep
        · cases hstep
          exact hi
        · obtain ⟨r, -, hstep⟩ := exists_of_bind_eq_ok hstep
          split at hstep
          · cases hstep
            exact hi.set rfl
          · cases hstep
            exact hi
      · cases hstep
        exact hi
    · split
      · split
        · exact noSlot_assignWidgets _ _ fun _ h => absurd h List.not_mem_nil
        · exact noSlot_assignNamedWidgets _ _ fun _ h => absurd h List.not_mem_nil
        · exact fun _ h => absurd h List.not_mem_nil
      · split <;> exact fun _ h => absurd h List.not_mem_nil
  · -- a title that is empty or the class type is dropped
    dsimp only
    split
    · split
      · rfl
      · rename_i t _ hne
        simpa using hne
    · rfl

/-- **The graph the importer builds is imported**: its nodes are held under
`nodes`, it has no metadata, and every node is imported. -/
theorem toGraph_imported {G : Graph} {ws : List String} (h : d.toGraph schema = .ok (G, ws)) :
    ImportedGraph schema G := by
  unfold toGraph at h
  dsimp only at h
  obtain ⟨acc, hacc, h⟩ := exists_of_bind_eq_ok h
  obtain ⟨groups, -, h⟩ := exists_of_bind_eq_ok h
  cases h
  -- the fold over the saved nodes keeps the graph imported
  have hb : ImportedGraph schema acc.1 := by
    refine foldlM_except_rec (motive := fun acc => ImportedGraph schema acc.1)
      (fun acc ha entry acc' hstep => ?_) d.nodes _ acc hacc ⟨rfl, rfl, fun _ h => absurd h List.not_mem_nil⟩
    split at hstep
    · -- no class type, or a reroute: skipped
      cases hstep
      exact ha
    · split at hstep
      · -- a note: only the notes grow
        cases hstep
        exact ⟨ha.wrapped, ha.metadata, ha.imported⟩
      · -- a node, put in the graph
        obtain ⟨⟨n, ws⟩, hn, hstep⟩ := exists_of_bind_eq_ok hstep
        obtain ⟨pos, -, hstep⟩ := exists_of_bind_eq_ok hstep
        cases hstep
        exact ha.insert (node_imported hn).1
  -- dropping the connections to missing nodes keeps each node imported
  refine ⟨hb.wrapped, hb.metadata, fun n hn => ?_⟩
  obtain ⟨m, hm, rfl⟩ := List.mem_map.1 hn
  exact (hb.imported m hm).filterInputs _

end Document

variable {schema : Schema} {g : Graph}

/-- **An imported graph none of whose literals has the shape of a connection
is canonical**: its document says everything about it but its outputs. -/
theorem ImportedGraph.canonical (hg : ImportedGraph schema g)
    (hlit : ∀ n ∈ g.nodes, ∀ name v, (name, InputValue.literal v) ∈ n.inputs → v.linkShaped = false) :
    g.Canonical where
  metadata_unreserved kv hkv := absurd (hg.metadata ▸ hkv) List.not_mem_nil
  ids_unreserved hw := absurd (hw.symm.trans hg.wrapped) Bool.false_ne_true
  metadata_not_node hw := absurd (hw.symm.trans hg.wrapped) Bool.false_ne_true
  inputs_reread n hn p hp := InputValue.rereads_of_isSlot ((hg.imported n hn).noSlot p hp) fun v hv =>
    hlit n hn p.1 v (by rw [← hv]; exact hp)
  titles_written n hn := (hg.imported n hn).title_written
  metadata_nodup := by rw [hg.metadata]; exact List.nodup_nil
  metadata_not_id hw := absurd (hw.symm.trans hg.wrapped) Bool.false_ne_true

/-- An imported node already has the outputs a schema gives it. -/
theorem Imported.completeFrom_clearOutputs {n : Node} (hn : Imported schema n) :
    ({ n with outputs := [] } : Node).completeFrom schema = n.completeFrom schema := by
  have hout := hn.outputs_declared
  unfold Node.completeFrom
  cases hf : schema.find? n.classType with
  | some t => rfl
  | none =>
    -- a class the schema does not know has no outputs
    rw [hf] at hout
    cases n
    simp_all

/-- Completing an imported node changes it exactly when it lacks a link-only
input of its class. -/
theorem Imported.completeFrom_eq_self_iff {n : Node} (hn : Imported schema n) :
    n.completeFrom schema = n ↔
      ∀ t, schema.find? n.classType = some t → ∀ d ∈ t.inputs, d.linkOnly = true → n.inputs.has d.name = true := by
  unfold Node.completeFrom
  cases hf : schema.find? n.classType with
  | none => simp
  | some t =>
    have hout : n.outputs = t.outputs := by rw [hn.outputs_declared, hf]; rfl
    simp only [Option.some.injEq, forall_eq']
    rw [← Inputs.withSlots_eq_self_iff]
    constructor
    · intro h
      exact congrArg Node.inputs h
    · intro h
      rw [h, ← hout]

theorem ImportedGraph.completeFrom_clearOutputs (hg : ImportedGraph schema g) :
    ({ g with nodes := g.nodes.map fun n => { n with outputs := [] } } : Graph).completeFrom schema =
      g.completeFrom schema := by
  unfold Graph.completeFrom
  simp only [List.map_map]
  congr 1
  exact List.map_congr_left fun n hn => (hg.imported n hn).completeFrom_clearOutputs

theorem ImportedGraph.completeFrom_eq_self_iff (hg : ImportedGraph schema g) :
    g.completeFrom schema = g ↔ ∀ n ∈ g.nodes,
      ∀ t, schema.find? n.classType = some t → ∀ d ∈ t.inputs, d.linkOnly = true → n.inputs.has d.name = true := by
  have hnodes : g.completeFrom schema = g ↔ g.nodes.map (Node.completeFrom schema) = g.nodes := by
    unfold Graph.completeFrom
    constructor
    · intro h
      exact congrArg Graph.nodes h
    · intro h
      rw [h]
  have hmap : g.nodes.map (Node.completeFrom schema) = g.nodes ↔ ∀ n ∈ g.nodes, n.completeFrom schema = n := by
    conv => lhs; rhs; rw [← List.map_id g.nodes]
    exact List.map_inj_left
  rw [hnodes, hmap]
  exact forall₂_congr fun n hn => (hg.imported n hn).completeFrom_eq_self_iff

theorem importWorkflow_of_isLayout {doc : Fields} (h : isLayout doc = true) :
    importWorkflow (.obj doc) schema = importLayout doc schema := by
  rw [importWorkflow_obj, if_pos h]

/-- A canonical graph's document is no layout. -/
theorem isLayout_toFields (hc : g.Canonical) : isLayout g.toFields = false := by
  unfold isLayout
  rw [Graph.get?_toFields_nodes hc]
  cases g.wrapped <;> rfl

end Layout

/-- **Importing a canonical graph's document reads it**, with the outputs and
the open slots the schema gives and no warning. -/
theorem importWorkflow_toFields {g : Graph} (hc : g.Canonical) (schema : Schema) :
    importWorkflow (.obj g.toFields) schema =
      .ok (({ g with nodes := g.nodes.map fun n => { n with outputs := [] } } : Graph).completeFrom schema, []) := by
  have hread : Graph.ofFields g.toFields Schema.empty = .ok _ := Graph.parse_toFields hc
  rw [importWorkflow_obj, Layout.isLayout_toFields hc, if_neg Bool.false_ne_true,
    Graph.ofFields_completeFrom hread]
  rfl

/-- **Importing a layout and reading its document back agree, save the open
slots.** Read with the same schema, the document of the graph a layout import
gives is that graph completed from the schema, with no warning, when none of
its literals has the shape of a connection; and that is the graph itself
exactly when each node has every link-only input its class declares. -/
theorem importWorkflow_toFields_layout {doc : Fields} {schema : Schema} {G : Graph} {ws : List String}
    (hlayout : Layout.isLayout doc = true) (h : importWorkflow (.obj doc) schema = .ok (G, ws))
    (hlit : ∀ n ∈ G.nodes, ∀ name v, (name, InputValue.literal v) ∈ n.inputs → v.linkShaped = false) :
    importWorkflow (.obj G.toFields) schema = .ok (G.completeFrom schema, []) ∧
      (G.completeFrom schema = G ↔ ∀ n ∈ G.nodes, ∀ t, schema.find? n.classType = some t →
        ∀ d ∈ t.inputs, d.linkOnly = true → n.inputs.has d.name = true) := by
  have hg : Layout.ImportedGraph schema G := by
    rw [Layout.importWorkflow_of_isLayout hlayout] at h
    obtain ⟨d, -, h⟩ := exists_of_bind_eq_ok h
    exact Layout.Document.toGraph_imported h
  refine ⟨?_, hg.completeFrom_eq_self_iff⟩
  rw [importWorkflow_toFields (hg.canonical hlit), hg.completeFrom_clearOutputs]

/-- A sampler saved with its latent input linked from an empty latent image and
its model slot unlinked, next to a note: reading the imported graph's document
back adds the open model slot. -/
theorem importWorkflow_toFields_sampler_layout :
    ∃ (doc : Fields) (schema : Schema) (G : Graph),
      doc = [("nodes", .arr [
          .obj [("id", .int 5), ("type", .str "EmptyLatentImage"), ("widgets_values", .arr [.int 512, .int 768])],
          .obj [("id", .int 3), ("type", .str "KSampler"), ("title", .str "Sampler"), ("mode", .int 4),
            ("widgets_values", .arr [.int 7, .str "fixed", .int 20]),
            ("inputs", .arr [.obj [("name", .str "latent_image"), ("type", .str "LATENT"), ("link", .int 1)],
              .obj [("name", .str "model"), ("type", .str "MODEL"), ("link", .null)]])],
          .obj [("id", .int 8), ("type", .str "Note"), ("widgets_values", .arr [.str "try it"])]]),
        ("links", .arr [.arr [.int 1, .int 5, .int 0, .int 3, .int 0, .str "LATENT"]])] ∧
      schema = ⟨[{ classType := "EmptyLatentImage"
                   inputs := [{ name := "width", type := "INT" }, { name := "height", type := "INT" }]
                   outputs := [{ name := "LATENT", type := "LATENT" }] },
                 { classType := "KSampler"
                   inputs := [{ name := "model", type := "MODEL" }, { name := "seed", type := "INT" },
                     { name := "steps", type := "INT" }, { name := "latent_image", type := "LATENT" }]
                   outputs := [{ name := "LATENT", type := "LATENT" }] }]⟩ ∧
      G = { nodes := [{ id := "5"
                        classType := "EmptyLatentImage"
                        inputs := [("width", .literal (.int 512)), ("height", .literal (.int 768))]
                        outputs := [{ name := "LATENT", type := "LATENT" }] },
                      { id := "3"
                        classType := "KSampler"
                        inputs := [("seed", .literal (.int 7)), ("steps", .literal (.int 20)),
                          ("latent_image", .connection "5" 0)]
                        title := some "Sampler"
                        mode := 4
                        outputs := [{ name := "LATENT", type := "LATENT" }] }]
            notes := [{ id := .int 8, title := "Note", content := "try it" }] } ∧
      Layout.isLayout doc = true ∧ importWorkflow (.obj doc) schema = .ok (G, []) ∧
      (∀ n ∈ G.nodes, ∀ name v, (name, InputValue.literal v) ∈ n.inputs → v.linkShaped = false) ∧
      (importWorkflow (.obj G.toFields) schema = .ok (G.completeFrom schema, []) ∧
        (G.completeFrom schema = G ↔ ∀ n ∈ G.nodes, ∀ t, schema.find? n.classType = some t →
          ∀ d ∈ t.inputs, d.linkOnly = true → n.inputs.has d.name = true)) := by
  refine ⟨_, _, _, rfl, rfl, rfl, ?hl, ?hi, ?hlit, importWorkflow_toFields_layout ?hl ?hi ?hlit⟩
  case hl => rfl
  case hi => rfl
  intro n hn name v hv
  simp only [List.mem_cons, List.not_mem_nil, or_false] at hn
  rcases hn with rfl | rfl <;> simp at hv <;> rcases hv with ⟨-, rfl⟩ | ⟨-, rfl⟩ <;> rfl

/-- A text encoder saved with its clip slot unlinked imports without that slot,
and reading the imported graph's document back adds it open: the two readings
of one workflow differ. -/
theorem importWorkflow_toFields_open_clip :
    ∃ (doc : Fields) (schema : Schema) (G G' : Graph),
      doc = [("nodes", .arr [.obj [("id", .int 1), ("type", .str "CLIPTextEncode"),
          ("widgets_values", .arr [.str "a cat"]),
          ("inputs", .arr [.obj [("name", .str "clip"), ("type", .str "CLIP"), ("link", .null)]])]]),
        ("links", .arr [])] ∧
      schema = ⟨[{ classType := "CLIPTextEncode"
                   inputs := [{ name := "text", type := "STRING", multiline := true },
                     { name := "clip", type := "CLIP" }]
                   outputs := [{ name := "CONDITIONING", type := "CONDITIONING" }] }]⟩ ∧
      G = { nodes := [{ id := "1"
                        classType := "CLIPTextEncode"
                        inputs := [("text", .literal (.str "a cat"))]
                        outputs := [{ name := "CONDITIONING", type := "CONDITIONING" }] }] } ∧
      G' = { nodes := [{ id := "1"
                         classType := "CLIPTextEncode"
                         inputs := [("text", .literal (.str "a cat")), ("clip", .unconnected "CLIP")]
                         outputs := [{ name := "CONDITIONING", type := "CONDITIONING" }] }] } ∧
      importWorkflow (.obj doc) schema = .ok (G, []) ∧
      importWorkflow (.obj G.toFields) schema = .ok (G', []) ∧ G' ≠ G := by
  refine ⟨_, _, _, _, rfl, rfl, rfl, rfl, rfl, rfl, ?_⟩
  simp

end NodeFlow
