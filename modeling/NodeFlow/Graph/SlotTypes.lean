import NodeFlow.Graph.Basic
import NodeFlow.Schema.Query
import NodeFlow.Graph.Lookup
/-!
# Slot types and what may feed what

One rule decides whether an output of one type may feed an input of another:
an unknown type on either side allows it, the wildcard `*` matches anything,
and otherwise the names must agree up to case (compared by case folding).

On top of it stand the editor's two questions: which inputs of other nodes
could take a given output, and which outputs of other nodes could feed a given
input. An input's type is its open slot's own type or else the schema's; an
output's type is the node's own output or else the schema's. A position
given as a value is compared with the outputs before it is read, as
`Schema.outputTypeOf` does.
-/

namespace NodeFlow

/-- The type that matches every type. -/
def wildcardType : String := "*"

/-- Whether a producer type may feed a consumer type. -/
def typesMatch (producer consumer : Option String) : Bool :=
  match producer, consumer with
  | some p, some c => p == wildcardType || c == wildcardType || Text.caseFold p == Text.caseFold c
  | _, _ => true

/-- Whether a value is the wildcard type. -/
def isWildcardValue : Json.Value → Bool
  | .str s => s == wildcardType
  | _ => false

/-- The case folding of a type given as a value; only a text has one. -/
def caseFoldedType : Json.Value → Outcome String
  | .str s => .ok (Text.caseFold s)
  | v => .error (.noAttribute v.typeName "casefold")

/-- Whether a producer type may feed a consumer type, both given as values:
null is an unknown type, the wildcard matches anything, and otherwise both
must be texts, folded producer first, that agree. -/
def typesMatchAt (producer consumer : Json.Value) : Outcome Bool :=
  match producer, consumer with
  | .null, _ | _, .null => return true
  | p, c =>
    if isWildcardValue p || isWildcardValue c then return true
    else return (← caseFoldedType p) == (← caseFoldedType c)

/-- One end of a possible connection: an input by name or an output by index. -/
structure SlotRef where
  node : String
  type : Option String
  input : Option String := none
  output : Option Int := none

/-- The type of an input: its open slot's own type, else the schema's. -/
def inputSlotType (schema : Schema) (n : Node) (name : String) : Option String :=
  match Inputs.get? n.inputs name with
  | some (.unconnected t) => some t
  | _ => schema.inputType? n.classType name

/-- The type of an output: the node's own, else the schema's. -/
def outputSlotType (schema : Schema) (n : Node) (index : Int) : Option String :=
  if 0 ≤ index then
    match n.outputs[index.toNat]? with
    | some o => some o.type
    | none => schema.outputType? n.classType index
  else schema.outputType? n.classType index

/-- The type of an output by a position given as a value: the node's own
output when the position lies within them, else the schema's. -/
def outputSlotTypeOf (schema : Schema) (n : Node) (index : Json.Value) : Outcome (Option String) := do
  if ← index.withinSize n.outputs.length then
    match index.listIndex? with
    | some i => return (n.outputs[i]?).map (·.type)
    | none => throw (.badIndex "list" index.typeName)
  else schema.outputTypeOf (.str n.classType) index

/-- The outputs of a node: its own, or else its class's in the schema. -/
def nodeOutputs (schema : Schema) (n : Node) : List OutputDecl :=
  if n.outputs.isEmpty then ((schema.find? n.classType).map (·.outputs)).getD [] else n.outputs

namespace Graph

/-- The connected or open inputs of nodes other than `source` that could take
an output of the given type. -/
def targetsOf (g : Graph) (schema : Schema) (source : String) (produced : Option String) :
    List SlotRef :=
  g.nodes.flatMap fun n =>
    if n.id == source then []
    else n.inputs.filterMap fun (name, v) => match v with
      | .literal _ => none
      | _ =>
        let consumed := inputSlotType schema n name
        if typesMatch produced consumed then some { node := n.id, type := consumed, input := some name }
        else none

/-- The connected or open inputs of other nodes that could take an output. -/
def validTargets (g : Graph) (schema : Schema) (source : String) (index : Int) : List SlotRef :=
  match g.get? source with
  | none => []
  | some src => g.targetsOf schema source (outputSlotType schema src index)

/-- The connected or open inputs of other nodes that could take an output named
by a position given as a value, of a node named by a value (`Graph.nodeAt`). -/
def validTargetsAt (g : Graph) (schema : Schema) (source index : Json.Value) :
    Outcome (List SlotRef) := do
  match ← g.nodeAt source with
  | none => return []
  | some src => return g.targetsOf schema src.id (← outputSlotTypeOf schema src index)

/-- The outputs of nodes other than `target` that could feed an input of the
given type. -/
def sourcesOf (g : Graph) (schema : Schema) (target : String) (consumed : Option String) :
    List SlotRef :=
  g.nodes.flatMap fun n =>
    if n.id == target then []
    else (nodeOutputs schema n).zipIdx.filterMap fun (o, i) =>
      if typesMatch (some o.type) consumed then some { node := n.id, type := some o.type, output := some i }
      else none

/-- The outputs of other nodes that could feed an input. -/
def validSources (g : Graph) (schema : Schema) (target : String) (name : String) : List SlotRef :=
  match g.get? target with
  | none => []
  | some tgt => g.sourcesOf schema target (inputSlotType schema tgt name)

/-- The outputs of other nodes that could feed an input, the node and the
input named by values: a name that is no text names no input, so its type is
unknown and any output may feed it; a list or an object cannot name one. -/
def validSourcesAt (g : Graph) (schema : Schema) (target name : Json.Value) :
    Outcome (List SlotRef) := do
  match ← g.nodeAt target with
  | none => return []
  | some tgt =>
    let consumed ← match name with
      | .str n => pure (inputSlotType schema tgt n)
      | v => if v.hashable then pure none else throw (.unhashable v.typeName)
    return g.sourcesOf schema tgt.id consumed

end Graph

end NodeFlow
