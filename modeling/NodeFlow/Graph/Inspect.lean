import NodeFlow.Graph.Write
/-!
# Inspection records

Plain JSON records of the library's data for display and comparison: a graph
with every node, input, group, note and metadata member in order, and a schema's
node types with every declared input. An ordered map is written as a list of
`[key, value]` pairs, so that its order survives any reader.
-/

namespace NodeFlow

open Json

/-- An input value as a one-member object: `lit`, `conn` or `slot`. -/
def InputValue.inspect : InputValue → Value
  | .literal v => .obj [("lit", v)]
  | .connection s i => .obj [("conn", .arr [.str s, .int i])]
  | .unconnected t => .obj [("slot", .str t)]

/-- An output as `[name, type]`. -/
def OutputDecl.inspect (o : OutputDecl) : Value := .arr [.str o.name, .str o.type]

/-- A node with all its parts. -/
def Node.inspect (n : Node) : Value :=
  .obj [("id", .str n.id), ("class_type", .str n.classType),
    ("title", match n.title with
      | some t => .str t
      | none => .null),
    ("mode", .int n.mode),
    ("inputs", .arr (n.inputs.map fun (k, v) => .arr [.str k, v.inspect])),
    ("outputs", .arr (n.outputs.map OutputDecl.inspect))]

/-- An edge as `[source, index, target, input]`. -/
def Edge.inspect (e : Edge) : Value := .arr [.str e.source, .int e.index, .str e.target, .str e.input]

/-- A graph with all its parts. -/
def Graph.inspect (g : Graph) : Value :=
  .obj [("wrapped", .bool g.wrapped), ("nodes", .arr (g.nodes.map Node.inspect)),
    ("groups", .arr (g.groups.map Group.toValue)), ("notes", .arr (g.notes.map Note.toValue)),
    ("metadata", .arr (g.metadata.map fun (k, v) => .arr [.str k, v]))]

/-- A declared input with all its fields. -/
def InputDecl.inspect (d : InputDecl) : Value :=
  .obj [("name", .str d.name), ("type", .str d.type), ("required", .bool d.required),
    ("default", d.default), ("min", d.min), ("max", d.max), ("step", d.step),
    ("options", .arr d.options), ("multiline", .bool d.multiline),
    ("force_input", .bool d.forceInput), ("tooltip", d.tooltip),
    ("connection_only", .bool d.linkOnly)]

/-- A node type with its inputs, widget inputs and outputs. -/
def NodeType.inspect (t : NodeType) : Value :=
  .obj [("class_type", .str t.classType), ("category", t.category),
    ("display_name", t.displayName), ("inputs", .arr (t.inputs.map InputDecl.inspect)),
    ("widget_inputs", .arr (t.widgetInputs.map fun d => .str d.name)),
    ("outputs", .arr (t.outputs.map OutputDecl.inspect)),
    ("output_types", .arr (t.outputTypes.map .str))]

/-- The node types of a schema, sorted by class type. -/
def Schema.inspect (s : Schema) : Value :=
  .arr ((s.types.mergeSort (fun a b => Text.codeLE a.classType b.classType)).map NodeType.inspect)

end NodeFlow
