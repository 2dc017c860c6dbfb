import NodeFlow.Graph.Basic
import NodeFlow.Schema.Read
/-!
# Reading a canonical workflow

A canonical document is an object of nodes keyed by id, either at the top or
under `nodes`. A member is a node when it is an object with a `class_type`.
At the top, members named `nodes`, `groups` or `notes` are never nodes and other
members that are not nodes are kept as metadata; under `nodes`, members that are
not nodes are dropped and the top's other members are the metadata.

An input value `[source, index]` with a text or integer source and an integer
index is a connection; anything else is a literal. With a schema, each node
takes its class's outputs, and each link-only input it lacks becomes an open
slot of the declared type.
-/

namespace NodeFlow

open Json

namespace InputValue

/-- Read a canonical input value. -/
def ofValue (v : Value) : InputValue :=
  match v with
  | .arr [.str s, .int i] => .connection s i
  | .arr [.int n, .int i] => .connection (toString n) i
  | _ => .literal v

/-- Write an input value: a literal as itself, a connection as
`[source, index]`, an open slot as null. -/
def encode : InputValue → Value
  | .literal v => v
  | .connection s i => .arr [.str s, .int i]
  | .unconnected _ => .null

end InputValue

/-- The failure of reading text that is not JSON, with its line and column. -/
def jsonFailure (text : String) (e : DecodeError) : Failure :=
  let msg := e.message text
  let (line, col) := lineColumn text e.pos
  .compiler (CompilerError.parseFailure ("Workflow is not valid JSON: " ++ msg) (some line)
    (some col) (some ⟨"JSONDecodeError", msg⟩))

/-- The object a workflow source stands for: an object as it is, a text as the
document it holds. A text that is no JSON or holds no object, and a source that
is neither, are parse failures; an integer of too many digits is refused as
such. -/
def loadDocument (src : Value) : Outcome Fields :=
  match src with
  | .obj fs => .ok fs
  | .str text =>
    match Value.decode text with
    | .error e => .error (Failure.ofDecode (jsonFailure text) e)
    | .ok (.obj fs) => .ok fs
    | .ok v => .error (.compiler (CompilerError.parseFailure
        ("Workflow must be a JSON object, got " ++ v.typeName)))
  | v =>
    let msg := (Failure.notJsonText v.typeName).message
    .error (.compiler (CompilerError.parseFailure ("Workflow is not valid JSON: " ++ msg)
      none none (some ⟨"TypeError", msg⟩)))

/-- The mode of a node: an integer as it is, anything else active. -/
def readMode : Option Value → Int
  | some (.int m) => m
  | _ => modeActive

namespace Node

/-- Read one node of a canonical document, completing it from the schema. -/
def ofFields (id : String) (fs : Fields) (schema : Schema) : Node :=
  let classType := ((Fields.get? fs "class_type").map Value.display).getD ""
  let inputs : Inputs := match Fields.get? fs "inputs" with
    | some (.obj raw) => raw.map fun (name, v) => (name, InputValue.ofValue v)
    | _ => []
  let title := match Fields.get? fs "_meta" with
    | some (.obj info) => match Fields.get? info "title" with
      | some (.str t) => if t.isEmpty then none else some t
      | _ => none
    | _ => none
  let node : Node :=
    { id := id, classType := classType, inputs := inputs, title := title
      mode := readMode (Fields.get? fs "mode") }
  match schema.find? classType with
  | some t =>
    let inputs := t.inputs.foldl (fun ins d =>
      if !Inputs.has ins d.name && d.linkOnly then ins ++ [(d.name, .unconnected d.type)] else ins)
      node.inputs
    { node with outputs := t.outputs, inputs := inputs }
  | none => node

end Node

/-- The member ids of a group: texts as they are, integers and booleans as
their text, anything else dropped. -/
def memberIds (vs : List Value) : List String :=
  vs.filterMap fun v => match v with
    | .str s => some s
    | .int n => some (toString n)
    | .bool _ => some v.display
    | _ => none

/-- Read the groups of a document; items that are not objects are skipped but
still counted for default ids. -/
def readGroups : Option Value → Outcome (List Group)
  | some (.arr items) =>
    items.zipIdx.foldlM (fun acc (item, i) => match item with
      | .obj fs => do
        let raw := (Fields.get? fs "member_nodes").getD .null
        let members ← if raw.truthy then raw.elements else .ok []
        let group : Group :=
          { id := (Fields.get? fs "id").getD (.int (i + 1))
            title := ((Fields.get? fs "title").map Value.display).getD "Group"
            members := memberIds members }
        return acc ++ [group]
      | _ => return acc) []
  | _ => .ok []

/-- Read the notes of a document, like groups. -/
def readNotes : Option Value → List Note
  | some (.arr items) =>
    items.zipIdx.filterMap fun (item, i) => match item with
      | .obj fs => some
        { id := (Fields.get? fs "id").getD (.int (i + 1))
          title := ((Fields.get? fs "title").map Value.display).getD "Note"
          content := ((Fields.get? fs "content").map Value.display).getD "" }
      | _ => none
  | _ => []

/-- Names that are never node ids at the top of a document. -/
def reservedNames : List String := ["nodes", "groups", "notes"]

/-- Whether a member value is a node. -/
def isNodeValue : Value → Bool
  | .obj fs => Fields.has fs "class_type"
  | _ => false

namespace Graph

/-- Read a canonical document. A document whose `nodes` is a list is in layout
form and is refused. -/
def ofFields (doc : Fields) (schema : Schema) : Outcome Graph := do
  let rawNodes := Fields.get? doc "nodes"
  if let some (.arr _) := rawNodes then
    throw (.compiler (CompilerError.parseFailure
      "Document is in layout format; import it with import_layout()"))
  let (wrapped, nodeMap) := match rawNodes with
    | some (.obj fs) => (true, fs)
    | _ => (false, doc)
  let nodes := nodeMap.filterMap fun (key, v) =>
    if !wrapped && reservedNames.contains key then none
    else match v with
      | .obj fs => if Fields.has fs "class_type" then some (Node.ofFields key fs schema) else none
      | _ => none
  let metadata : Fields :=
    if wrapped then doc.filter fun (key, _) => !reservedNames.contains key
    else doc.filter fun (key, v) => !reservedNames.contains key && !isNodeValue v
  let groups ← readGroups (Fields.get? doc "groups")
  let graph : Graph :=
    { nodes := nodes
      groups := groups
      notes := readNotes (Fields.get? doc "notes")
      wrapped := wrapped
      metadata := metadata }
  return graph

/-- Read a workflow source (an object, or text holding one) as a canonical
document. -/
def parse (src : Value) (schema : Schema := Schema.empty) : Outcome Graph := do
  ofFields (← loadDocument src) schema

end Graph

end NodeFlow
