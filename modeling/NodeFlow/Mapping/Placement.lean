import NodeFlow.Mapping.State
/-!
# Writing placeholders into a graph

A template is made from a graph by writing, into the input each mapped field
lives in, the literal `{{placeholder}}` of that field. A placement names the
field, the node and the input; one that names a node or an input the graph does
not have is skipped, and a connected input becomes the placeholder literal.

Placements come from the selections of a mapping state, or from a plain map of
field keys to `[node id, input key]` pairs, whose entries are read one by one
as they are placed.
-/

namespace NodeFlow

open Json

/-- A field to be written into input `input` of node `node`. -/
structure Placement where
  field : Value
  node : Value
  input : Value
deriving Inhabited

namespace Placement

/-- The placement of a field from its `[node id, input key]` pair, which may be
any value that yields exactly two items. -/
def ofTarget (field : String) (target : Value) : Outcome Placement :=
  match target with
  | .arr _ | .str _ | .obj _ => do
    match ← target.iterate with
    | [node, input] => return ⟨.str field, node, input⟩
    | items => .error (.unpack 2 items.length)
  | v => .error (.notUnpackable v.typeName)

/-- The placement of a selected field. -/
def ofBinding (b : Value × String × String) : Placement := ⟨b.1, .str b.2.1, .str b.2.2⟩

end Placement

namespace Graph

/-- Write one placement. Ids and input names are texts, so a placement naming
them by another scalar finds nothing; a list or object cannot be looked up. -/
def place (g : Graph) (p : Placement) : Outcome Graph := do
  if !p.node.hashable then .error (.unhashable p.node.typeName)
  match p.node with
  | .str id => match g.get? id with
    | none => return g
    | some n =>
      if !p.input.hashable then .error (.unhashable p.input.typeName)
      match p.input with
      | .str name =>
        if n.inputs.has name then
          return g.modify id (·.setInput name (.literal (.str (Template.placeholderLiteral p.field))))
        else return g
      | _ => return g
  | _ => return g

/-- Write placements in order. -/
def placeAll (g : Graph) (ps : List Placement) : Outcome Graph := ps.foldlM place g

/-- Write the fields of a map from field keys to `[node id, input key]` pairs. -/
def placeMapped (g : Graph) (mappings : Value) : Outcome Graph :=
  match mappings with
  | .obj entries => entries.foldlM (fun acc (field, target) => do
      acc.place (← Placement.ofTarget field target)) g
  | v => .error (.noAttribute v.typeName "items")

/-- The template of a graph under a mapping state: every selected field's
placeholder written into its input. -/
def template (g : Graph) (s : MappingState) : Outcome Graph := do
  g.placeAll ((← s.bindings).map Placement.ofBinding)

end Graph

end NodeFlow
