import NodeFlow.Graph.Basic
import NodeFlow.Json.Access
/-!
# Asking a graph about values

The questions of `Graph.Basic` with their keys given as values of any kind.
Node ids, input names and class types are texts, so a value of another kind
names nothing; but a lookup by key needs a key that can be one, and a list or
an object cannot. A search that compares each edge or node with the value
needs no key, and finds nothing for a value that is no text. An output type is
compared in upper case, and only a text has one.
-/

namespace NodeFlow

open Json

namespace Graph

/-- The node of an id given as a value. -/
def nodeAt (g : Graph) (id : Value) : Outcome (Option Node) :=
  match id with
  | .str i => .ok (g.get? i)
  | v => if v.hashable then .ok none else .error (.unhashable v.typeName)

/-- Whether the graph has a node of an id given as a value. -/
def holds (g : Graph) (id : Value) : Outcome Bool :=
  return (← g.nodeAt id).isSome

/-- The edges into a node of an id given as a value. -/
def incomingAt (g : Graph) : Value → List Edge
  | .str i => g.incoming i
  | _ => []

/-- The edges out of a node of an id given as a value. -/
def outgoingAt (g : Graph) : Value → List Edge
  | .str i => g.outgoing i
  | _ => []

/-- The nodes of a class type given as a value. -/
def nodesOfTypeAt (g : Graph) : Value → List Node
  | .str ct => g.nodesOfType ct
  | _ => []

end Graph

namespace Node

/-- The literal of an input named by a value, or `default` when the input is
missing or holds no literal. -/
def literalAt (n : Node) (name default : Value) : Outcome Value :=
  match name with
  | .str s => .ok ((n.literal? s).getD default)
  | v => if v.hashable then .ok default else .error (.unhashable v.typeName)

/-- Whether the node has an output of a type given as a value. -/
def hasOutputTypeAt (n : Node) : Value → Outcome Bool
  | .str t => .ok (n.hasOutputType t)
  | v => .error (.noAttribute v.typeName "upper")

end Node

end NodeFlow
