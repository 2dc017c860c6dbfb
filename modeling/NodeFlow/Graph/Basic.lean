import NodeFlow.Schema.Basic
/-!
# Workflow graphs

A workflow is a map from node ids to nodes, kept in the order the nodes were
written. A node has a class type, named inputs in order, an optional title, an
execution mode and the outputs its class declares. An input holds a literal
value, a connection to an output of another node, or an open slot of a type
that nothing feeds yet.

Edges are derived: one per connected input, in node order and then input
order. Groups and notes travel with the graph; `wrapped` and `metadata` keep the
shape of the document the graph came from.
-/

namespace NodeFlow

open Json

/-- The mode of a node that runs. -/
def modeActive : Int := 0

/-- The mode of a muted node. -/
def modeMuted : Int := 2

/-- The mode of a bypassed node: its inputs pass through to its consumers. -/
def modeBypassed : Int := 4

/-- The value of a node input. -/
inductive InputValue where
  /-- A value written into the node. -/
  | literal (v : Value)
  /-- The output `index` of node `source`. -/
  | connection (source : String) (index : Int)
  /-- A typed input that nothing feeds yet. -/
  | unconnected (type : String)
deriving Inhabited

/-- The named inputs of a node, in order. -/
abbrev Inputs := List (String × InputValue)

namespace Inputs

/-- The value of the input with this name. -/
def get? (ins : Inputs) (name : String) : Option InputValue :=
  (ins.find? (·.1 == name)).map (·.2)

/-- Whether an input has this name. -/
def has (ins : Inputs) (name : String) : Bool := ins.any (·.1 == name)

/-- Set an input: a present name keeps its place, a new one goes last. -/
def set (ins : Inputs) (name : String) (v : InputValue) : Inputs :=
  if has ins name then ins.map (fun p => if p.1 == name then (name, v) else p)
  else ins ++ [(name, v)]

end Inputs

/-- A node of a workflow. -/
structure Node where
  id : String
  classType : String
  inputs : Inputs := []
  title : Option String := none
  mode : Int := modeActive
  outputs : List OutputDecl := []
deriving Inhabited

namespace Node

/-- The title, or the class type when there is none. -/
def displayTitle (n : Node) : String :=
  match n.title with
  | some t => if t.isEmpty then n.classType else t
  | none => n.classType

/-- The node is bypassed. -/
def isBypassed (n : Node) : Bool := n.mode == modeBypassed

/-- The node is muted. -/
def isMuted (n : Node) : Bool := n.mode == modeMuted

/-- The connected inputs: name, source node and output index, in input order. -/
def connections (n : Node) : List (String × String × Int) :=
  n.inputs.filterMap fun (name, v) => match v with
    | .connection s i => some (name, s, i)
    | _ => none

/-- The literal value of an input, if it holds one. -/
def literal? (n : Node) (name : String) : Option Value :=
  match Inputs.get? n.inputs name with
  | some (.literal v) => some v
  | _ => none

/-- Whether an output has this type, in any case. -/
def hasOutputType (n : Node) (type : String) : Bool :=
  let wanted := Text.toUpper type
  n.outputs.any fun o => Text.toUpper o.type == wanted

/-- Set one input. -/
def setInput (n : Node) (name : String) (v : InputValue) : Node :=
  { n with inputs := Inputs.set n.inputs name v }

end Node

/-- A connection seen from the graph: from output `index` of `source` into input
`input` of `target`. -/
structure Edge where
  source : String
  index : Int
  target : String
  input : String
deriving DecidableEq, Repr

/-- A group of nodes drawn together. -/
structure Group where
  id : Value
  title : String
  members : List String

/-- Free text attached to a workflow; never executed. -/
structure Note where
  id : Value
  title : String
  content : String

/-- A workflow graph. -/
structure Graph where
  nodes : List Node := []
  groups : List Group := []
  notes : List Note := []
  /-- The document held its nodes under a `nodes` object. -/
  wrapped : Bool := true
  /-- Other members of the document, in order. -/
  metadata : Fields := []
deriving Inhabited

namespace Graph

/-- The number of nodes. -/
def size (g : Graph) : Nat := g.nodes.length

/-- The node with an id. -/
def get? (g : Graph) (id : String) : Option Node := g.nodes.find? (·.id == id)

/-- Whether a node has this id. -/
def contains (g : Graph) (id : String) : Bool := g.nodes.any (·.id == id)

/-- The node ids, in order. -/
def ids (g : Graph) : List String := g.nodes.map (·.id)

/-- One edge per connected input, in node order and then input order. -/
def edges (g : Graph) : List Edge :=
  g.nodes.flatMap fun n => n.connections.map fun (name, s, i) => ⟨s, i, n.id, name⟩

/-- The edges leaving a node. -/
def outgoing (g : Graph) (id : String) : List Edge := g.edges.filter (·.source == id)

/-- The edges entering a node. -/
def incoming (g : Graph) (id : String) : List Edge := g.edges.filter (·.target == id)

/-- The nodes of a class type, in order. -/
def nodesOfType (g : Graph) (classType : String) : List Node :=
  g.nodes.filter (·.classType == classType)

/-- The class types present, sorted and each once. -/
def classTypes (g : Graph) : List String :=
  ((g.nodes.map (·.classType)).mergeSort Text.codeLE).eraseDups

/-- Put a node: an id already present keeps its place and takes the new node,
a new id goes last. -/
def insert (g : Graph) (n : Node) : Graph :=
  if g.contains n.id then { g with nodes := g.nodes.map fun m => if m.id == n.id then n else m }
  else { g with nodes := g.nodes ++ [n] }

/-- Change the node with an id; other ids leave the graph as it is. -/
def modify (g : Graph) (id : String) (f : Node → Node) : Graph :=
  { g with nodes := g.nodes.map fun m => if m.id == id then f m else m }

end Graph

end NodeFlow
