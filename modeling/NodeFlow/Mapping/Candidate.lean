import NodeFlow.Graph.Basic
import NodeFlow.Json.Access
import NodeFlow.Template.Field
/-!
# Where a field lives in a graph

A candidate says that one input of one node realises a template field. The
candidates of a field are found by input name (`fieldCandidates`), except for
the two prompt texts: every prompt encoder is a candidate for them, placed by
where its conditioning output goes (`Graph.tracePolarity`).

The trace is a breadth-first walk over outgoing edges. An edge into an input
named `positive` or `negative` decides at once, one named `conditioning` (a
guider with a single conditioning) counts as positive; other edges are followed
into nodes that pass conditioning on, up to `maxTraceDepth` steps, each node at
most once. Traced encoders go to the front of their list, the most recent
first; untraced ones go by their title, and to both lists when it names
neither polarity.
-/

namespace NodeFlow

open Json

/-- The claim that input `inputKey` of a node realises a field. -/
structure Candidate where
  nodeId : String
  nodeTitle : String
  classType : String
  inputKey : String
  currentValue : Value
deriving Inhabited

namespace Candidate

/-- The candidate input `key` of node `n`, with its literal value if it has one. -/
def ofInput (n : Node) (key : String) : Candidate :=
  ⟨n.id, n.displayTitle, n.classType, key, (n.literal? key).getD .null⟩

/-- The saved form of a candidate. -/
def toValue (c : Candidate) : Value :=
  .obj [("nodeId", .str c.nodeId), ("nodeName", .str c.nodeTitle), ("classType", .str c.classType),
    ("inputKey", .str c.inputKey), ("currentValue", c.currentValue)]

/-- A candidate read back from its saved form: the node id and input key must
be there, the names may be missing, and every part is shown as text. -/
def ofValue (v : Value) : Outcome Candidate := do
  let nodeId ← v.member "nodeId"
  let fs := v.fields?.getD []
  let name := Value.memberOr fs "nodeName" (.str "")
  let classType := Value.memberOr fs "classType" (.str "")
  let inputKey ← v.member "inputKey"
  return ⟨nodeId.display, name.display, classType.display, inputKey.display,
    Value.memberOr fs "currentValue" .null⟩

end Candidate

/-- Which prompt a conditioning output feeds. -/
inductive Polarity where
  | positive
  | negative
deriving DecidableEq, Repr

namespace Polarity

/-- The word for a polarity. -/
def name : Polarity → String
  | .positive => "positive"
  | .negative => "negative"

/-- The polarity an edge into an input of this name decides, if any. -/
def ofInputName (input : String) : Option Polarity :=
  match Text.toLower input with
  | "positive" => some .positive
  | "negative" => some .negative
  | "conditioning" => some .positive
  | _ => none

end Polarity

/-- How many edges a trace follows from the encoder at most. -/
def maxTraceDepth : Nat := 10

/-- Input names that carry prompt text on encoder nodes, in order of preference. -/
def promptInputNames : List String := ["text", "prompt"]

namespace Graph

/-- Whether a trace may walk on through a node: it exists, was not visited, and
it passes conditioning on (or declares no outputs at all). -/
def passesConditioning (g : Graph) (visited : List String) (id : String) : Bool :=
  match g.get? id with
  | none => false
  | some n => !visited.contains id && (n.outputs.isEmpty || n.hasOutputType "CONDITIONING")

/-- The walk itself: `queue` holds the nodes still to look at with their
distance from the encoder. Each node enters the queue once, so `fuel` one more
than the number of nodes is enough. -/
def traceQueue (g : Graph) : Nat → List String → List (String × Nat) → Option Polarity
  | 0, _, _ => none
  | _ + 1, _, [] => none
  | fuel + 1, visited, (current, depth) :: rest =>
    let edges := g.outgoing current
    match edges.findSome? (fun e => Polarity.ofInputName e.input) with
    | some p => some p
    | none =>
      if maxTraceDepth ≤ depth then g.traceQueue fuel visited rest
      else
        let (visited, added) := edges.foldl (fun (acc : List String × List (String × Nat)) e =>
          if g.passesConditioning acc.1 e.target then (acc.1 ++ [e.target], acc.2 ++ [(e.target, depth + 1)])
          else acc) (visited, [])
        g.traceQueue fuel visited (rest ++ added)

/-- The prompt that the conditioning output of node `id` ends up in, if the
walk finds one. -/
def tracePolarity (g : Graph) (id : String) : Option Polarity :=
  g.traceQueue (g.nodes.length + 2) [id] [(id, 0)]

/-- The prompt encoders of a graph with their text input: nodes with a `text`
or `prompt` input; if there are none, conditioning producers with the text
inputs their schema declares. -/
def promptEncoders (g : Graph) (schema : Schema) : List (Node × String) :=
  let named := g.nodes.filterMap fun n => (promptInputNames.find? n.inputs.has).map (n, ·)
  if !named.isEmpty then named
  else g.nodes.flatMap fun n =>
    if !n.hasOutputType "CONDITIONING" then []
    else match schema.find? n.classType with
      | none => []
      | some t => (t.inputs.filter fun d => d.type == "STRING" && n.inputs.has d.name).map (n, ·.name)

/-- The candidates for the positive and the negative prompt. -/
def promptCandidates (g : Graph) (schema : Schema) : List Candidate × List Candidate :=
  (g.promptEncoders schema).foldl (fun (acc : List Candidate × List Candidate) (n, key) =>
    let c := Candidate.ofInput n key
    match g.tracePolarity n.id with
    | some .positive => (c :: acc.1, acc.2)
    | some .negative => (acc.1, c :: acc.2)
    | none =>
      let title := Text.toLower n.displayTitle
      if Text.occursIn "positive" title then (acc.1 ++ [c], acc.2)
      else if Text.occursIn "negative" title then (acc.1, acc.2 ++ [c])
      else (acc.1 ++ [c], acc.2 ++ [c])) ([], [])

/-- Whether a field's placeholder names one of the two noise passes. -/
def isNoisePassKey (key : String) : Bool :=
  key.startsWith "highnoise_" || key.startsWith "lownoise_"

/-- Whether the value of an input fits a field: the noise-pass fields share
their input key, so only their own placeholder in the value tells them apart. -/
def valueFitsField (key : String) (v : Option Value) : Bool :=
  if isNoisePassKey key then
    match v with
    | some (.str s) => Text.occursIn ("\x7b\x7b" ++ key ++ "\x7d\x7d") s
    | _ => false
  else true

/-- The candidates for a field, in graph order. The prompt fields take their
lists from `prompts`; the input image falls back to image producers whose
schema offers a choice of files. -/
def fieldCandidates (g : Graph) (schema : Schema) (prompts : List Candidate × List Candidate)
    (key : String) : List Candidate :=
  if key == "positive_text" then prompts.1
  else if key == "negative_text" then prompts.2
  else
    let names := Template.inputNames key
    let found := g.nodes.flatMap fun n =>
      (n.inputs.filter fun (name, _) => names.contains name && valueFitsField key (n.literal? name)).map
        fun (name, _) => Candidate.ofInput n name
    if !found.isEmpty || key != "image" then found
    else g.nodes.flatMap fun n =>
      if !n.hasOutputType "IMAGE" then []
      else match schema.find? n.classType with
        | none => []
        | some t => (t.inputs.filter fun d => d.type == enumType && n.inputs.has d.name).map
            fun d => Candidate.ofInput n d.name

/-- The candidates for a field whose key is given as a value: a key of another
kind than text names no input and has none, and a list or an object cannot be
looked up at all. -/
def fieldCandidatesAt (g : Graph) (schema : Schema) (prompts : List Candidate × List Candidate)
    (key : Value) : Outcome (List Candidate) :=
  match key with
  | .str k => .ok (g.fieldCandidates schema prompts k)
  | v => if v.hashable then .ok [] else .error (.unhashable v.typeName)

end Graph

end NodeFlow
