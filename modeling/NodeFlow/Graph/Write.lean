import NodeFlow.Graph.Read
import NodeFlow.Json.Writer
import NodeFlow.Text.Digit
/-!
# Writing a canonical workflow

The canonical document of a graph writes each node as its class type and its
inputs, leaving out open slots; the mode only when the node does not simply run,
and the title only when it says more than the class type. Nodes stand at the top
or under `nodes` as the graph was read; groups and notes follow when there are
any, and then each metadata member whose name is still free.

`Graph.nextId` is the least id above every all-digit node id and at least a
floor, for nodes a pass adds.
-/

namespace NodeFlow

open Json

/-- The inputs as a document writes them: each one encoded, open slots left
out. -/
def Inputs.encode (ins : Inputs) : Fields :=
  ins.filterMap fun (name, v) => match v with
    | .unconnected _ => none
    | v => some (name, v.encode)

namespace Node

/-- The canonical object of a node. -/
def toFields (n : Node) : Fields :=
  [("class_type", .str n.classType), ("inputs", .obj (Inputs.encode n.inputs))] ++
    (if n.mode != modeActive then [("mode", .int n.mode)] else []) ++
    (match n.title with
      | some t => if !t.isEmpty && t != n.classType then [("_meta", .obj [("title", .str t)])] else []
      | none => [])

end Node

/-- A group as an object. -/
def Group.toValue (g : Group) : Value :=
  .obj [("id", g.id), ("title", .str g.title), ("member_nodes", .arr (g.members.map .str))]

/-- A note as an object. -/
def Note.toValue (n : Note) : Value :=
  .obj [("id", n.id), ("title", .str n.title), ("content", .str n.content)]

namespace Graph

/-- The canonical document of a graph. -/
def toFields (g : Graph) : Fields :=
  let nodes : Fields := g.nodes.map fun n => (n.id, .obj n.toFields)
  let base : Fields := if g.wrapped then [("nodes", .obj nodes)] else nodes
  let base := if g.groups.isEmpty then base else Fields.insert base "groups" (.arr (g.groups.map Group.toValue))
  let base := if g.notes.isEmpty then base else Fields.insert base "notes" (.arr (g.notes.map Note.toValue))
  g.metadata.foldl (fun acc (k, v) => Fields.insertIfAbsent acc k v) base

/-- The canonical document as a value. -/
def toValue (g : Graph) : Value := .obj g.toFields

/-- The canonical text: indented by `indent` spaces per level, or on one line. -/
def serialize (g : Graph) (indent : Option Nat := some 2) : String :=
  let layout := match indent with
    | some n => Layout.indented n false
    | none => Layout.inline
  g.toValue.render layout

/-- The integers of the node ids written only with digits, in node order. An
id of digit characters that are not all decimal digits has no integer reading
and fails, as does one of too many digits. -/
def numericIds (g : Graph) : Outcome (List Int) :=
  g.nodes.filterMapM fun n =>
    if Text.isDigitText n.id then
      match Decimal.readInteger n.id with
      | .value v => .ok (some v)
      | .tooLong count => .error (.digitLimit count)
      | .invalid => .error (.notAnInteger (quoteLiteral n.id))
    else .ok none

/-- The bound, exclusive above, of the integers that fit a machine word:
`2 ^ 63`, the least word being its negation. -/
def wordLimit : Int := ((Nat.pow 2 63 : Nat) : Int)

/-- The canonical text with its indentation given as a value: null writes one
line; a whole number (or a boolean, as 0 or 1) indents by that many spaces per
level, none when it is not positive, and must fit a machine word to count
spaces; a text is itself the step of one level. A value of another kind cannot
repeat a space. -/
def serializeWith (g : Graph) (indent : Value) : Outcome String :=
  let layout (step : String) : Layout := ⟨some step, ",", ": ", false, false⟩
  match indent with
  | .null => .ok (g.toValue.render Layout.inline)
  | .int n =>
    if n < -wordLimit || wordLimit ≤ n then .error .indexOverflow
    else .ok (g.toValue.render (layout (String.ofList (List.replicate n.toNat ' '))))
  | .bool b => .ok (g.toValue.render (layout (if b then " " else "")))
  | .str step => .ok (g.toValue.render (layout step))
  | v => .error (.sequenceRepeat v.typeName)

/-- The least id above every node id written only with digits and at least
`floor`. -/
def nextId (g : Graph) (floor : Int := 0) : Outcome Int := do
  return (← g.numericIds).foldl max (floor - 1) + 1

/-- `nextId` for a floor of any kind. The largest of `floor - 1` and the
numeric ids, the earliest of equals, is taken and one added: a boolean floor
counts as 0 or 1, a double floor stays a double while it is the largest (NaN
always is), and a floor of another kind cannot have one taken away. -/
def nextIdOf (g : Graph) (floor : Value) : Outcome Value := do
  let ids ← g.numericIds
  let start : Value ← match floor with
    | .int n => pure (.int (n - 1))
    | .bool b => pure (.int ((if b then 1 else 0) - 1))
    | .float x => pure (.float (x.addInt (-1)))
    | v => throw (.unsupportedOperand "-" v.typeName "int")
  let best := ids.foldl (fun (cur : Value) n => match cur with
    | .float x => if x.compareInt n == some .lt then .int n else cur
    | .int m => if m < n then .int n else cur
    | _ => cur) start
  return match best with
    | .float x => .float (x.addInt 1)
    | .int m => .int (m + 1)
    | v => v

end Graph

end NodeFlow
