import NodeFlow.Graph.Basic
import NodeFlow.Template.Fill
import NodeFlow.Template.Category
/-!
# Checking a graph

Checks run before a graph is stored or submitted; each gives a list of error
texts, empty when the graph passes.

* `Graph.structureErrors`: the graph has nodes, every connection names an
  existing node and an output that node has (its own outputs, else those its
  schema declares, when either is known), and no chain of connections returns
  to its start. One cycle is reported, found by depth-first search from each
  node in graph order over the sources of its connections. The check fails
  when an output index it reports has too many digits to be written out.
* `Graph.missingClassTypes`: the class types the server does not provide.
* `Graph.templateErrors`: a template exposes the prompt, and the input image
  when its category starts from one.
-/

namespace NodeFlow

open Json

namespace Graph

/-- The sources of each node's connections that are nodes of the graph, in input order. -/
def sourceLists (g : Graph) : List (String × List String) :=
  g.nodes.map fun n => (n.id, (n.connections.map (·.2.1)).filter g.contains)

/-- How far the search has come with a node. -/
inductive Visit where
  /-- On the current search path. -/
  | onPath
  /-- Searched through: no cycle passes it. -/
  | done
deriving DecidableEq

/-- One run of the search. `stack` holds the search path, innermost node first,
each with the sources still to try. A source on the path closes a cycle, which
is the path from that source on, with the source again at its end. Every step
enters or leaves a node, so `fuel` of twice the number of nodes suffices. -/
def cycleSearch (adj : List (String × List String)) :
    Nat → List (String × Visit) → List (String × List String) → List (String × Visit) × Option (List String)
  | 0, marks, _ => (marks, none)
  | _ + 1, marks, [] => (marks, none)
  | fuel + 1, marks, (id, next) :: below =>
    match next.dropWhile (fun s => marks.lookup s == some .done) with
    | [] => cycleSearch adj fuel (marks.map fun m => if m.1 == id then (id, .done) else m) below
    | s :: rest =>
      if marks.lookup s == some .onPath then
        let path := (((id, next) :: below).map (·.1)).reverse
        (marks, some (path.dropWhile (· != s) ++ [s]))
      else
        cycleSearch adj fuel ((s, .onPath) :: marks)
          ((s, (adj.lookup s).getD []) :: (id, rest) :: below)

/-- One cycle of the graph's connections, if there is one. -/
def findCycle (g : Graph) : Option (List String) :=
  let adj := g.sourceLists
  let fuel := 2 * adj.length + 2
  (adj.foldl (fun (acc : List (String × Visit) × Option (List String)) (root, sources) =>
    match acc with
    | (_, some _) => acc
    | (marks, none) =>
      if (marks.lookup root).isSome then acc
      else cycleSearch adj fuel ((root, .onPath) :: marks) [(root, sources)]) ([], none)).2

/-- The number of outputs of a node, from the node itself or else its schema;
zero when neither knows. -/
def outputCount (schema : Schema) (n : Node) : Nat :=
  if n.outputs.isEmpty then ((schema.find? n.classType).map (·.outputs.length)).getD 0
  else n.outputs.length

/-- The error for input `input` of node `id` reading from `source`, which the
graph does not have. -/
def missingSourceError (id input source : String) : String :=
  "Node '" ++ id ++ "' input '" ++ input ++ "' references non-existent node '" ++ source ++ "'"

/-- The error for node `id` reading output `index` of `source`, which has
`count` outputs. The index is written out in decimal, so an index of more than
`Decimal.maxIntegerDigits` digits has no error text. -/
def invalidIndexError (id : String) (index : Int) (source : String) (count : Nat) : Outcome String := do
  return "Node '" ++ id ++ "' references invalid output index " ++ (← integerText index) ++ " from '" ++
    source ++ "' (has " ++ toString count ++ " outputs)"

/-- The error of the connection `(input, source, index)` of node `id`, if it
fails: its source is not a node, or its index is at least the source's number of
outputs, when that is known. -/
def connectionError (g : Graph) (schema : Schema) (id : String) (c : String × String × Int) :
    Outcome (Option String) :=
  match g.get? c.2.1 with
  | none => return some (missingSourceError id c.1 c.2.1)
  | some s =>
    let count := outputCount schema s
    if count != 0 && (count : Int) ≤ c.2.2 then some <$> invalidIndexError id c.2.2 s.id count
    else return none

/-- The connection errors of one node, in input order. -/
def connectionErrors (g : Graph) (schema : Schema) (n : Node) : Outcome (List String) :=
  n.connections.filterMapM (g.connectionError schema n.id)

/-- The structural errors of a graph. -/
def structureErrors (g : Graph) (schema : Schema) : Outcome (List String) := do
  if g.nodes.isEmpty then return ["Workflow has no nodes"]
  let linkErrors ← g.nodes.mapM (g.connectionErrors schema)
  return linkErrors.flatten ++
    match g.findCycle with
    | some c => ["Workflow contains a cycle: " ++ " -> ".intercalate c]
    | none => []

/-- The class types of a graph that the schema does not know, sorted. -/
def missingClassTypes (g : Graph) (schema : Schema) : List String :=
  g.classTypes.filter fun c => !c.isEmpty && !schema.has c

/-- One error per class type the server does not provide. -/
def availabilityErrors (g : Graph) (schema : Schema) : List String :=
  (g.missingClassTypes schema).map ("Node type not available on server: " ++ ·)

/-- Whether some input of the graph holds exactly this text. -/
def hasLiteralText (g : Graph) (text : String) : Bool :=
  g.nodes.any fun n => n.inputs.any fun (_, v) => match v with
    | .literal (.str t) => t == text
    | _ => false

/-- The errors of a template for a category. -/
def templateErrors (g : Graph) (c : Category) : List String :=
  let names := g.placeholders
  (if names.contains "positive_prompt" then []
    else ["Missing required placeholder " ++ Template.slotText "positive_prompt"]) ++
    (if c.needsInputImage && !names.contains "image_filename" && !g.hasLiteralText Template.defaultImageName
      then ["Missing input image: expected " ++ Template.slotText "image_filename" ++ " or '" ++
        Template.defaultImageName ++ "'"]
      else [])

/-- All errors of a graph: structure, availability when the schema knows any
class type, and the template's when a category is given. -/
def errors (g : Graph) (schema : Schema) (c : Option Category) : Outcome (List String) := do
  return (← g.structureErrors schema) ++ (if schema.size == 0 then [] else g.availabilityErrors schema) ++
    match c with
    | some c => g.templateErrors c
    | none => []

end Graph

end NodeFlow
