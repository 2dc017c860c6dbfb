import NodeFlow.Submission.Request
import NodeFlow.Template.Fill
import NodeFlow.Graph.Check
import NodeFlow.Graph.Read
import NodeFlow.Chain.Inject
import NodeFlow.Bypass
import NodeFlow.Hash.Sha256
import NodeFlow.Layout.Widgets
/-!
# Compiling a template for submission

`Graph.compile` turns a template into a workflow ready to run, in a fixed
order of passes: fill the placeholders, write the seed, apply the overrides,
insert the modifier chain and extend the two noise-pass chains, and resolve
bypassed nodes last. The result carries the warnings of filling and bypass
resolution, and the structural errors of the final graph; a strict compile
refuses a graph with any.

A compiled workflow is identified by `workflowHash`: the first sixteen hex
digits of the SHA-256 of its canonical text (sorted keys, no blanks, ASCII
escapes). An empty document has the empty hash.
-/

/-!
## Overrides and seeds

Two submission passes that change literal inputs in place. An override map
names, per node id, inputs and their new values; only inputs that already hold
a literal change, so unknown nodes, unknown inputs and connected inputs are
left alone. A seed is written into every literal seed input.
-/
namespace NodeFlow

open Json

namespace Node

/-- Replace the literals of the named inputs that hold one. -/
def overrideLiterals (n : Node) (values : Fields) : Node :=
  values.foldl (fun m (name, v) => match Inputs.get? m.inputs name with
    | some (.literal _) => m.setInput name (.literal v)
    | _ => m) n

end Node

namespace Graph

/-- Apply a map from node ids to input values. A map that counts as false
changes nothing; any other value that is not an object cannot be read. -/
def override (g : Graph) (overrides : Value) : Outcome Graph :=
  if !overrides.truthy then .ok g
  else match overrides with
    | .obj entries => .ok (entries.foldl (fun acc (id, attrs) => match attrs with
        | .obj values => acc.modify id (·.overrideLiterals values)
        | _ => acc) g)
    | v => .error (.noAttribute v.typeName "items")

/-- Write `seed` into every seed input that holds a literal. -/
def reseed (g : Graph) (seed : Value) : Graph :=
  { g with nodes := g.nodes.map fun n => NodeFlow.Layout.seedNames.foldl (fun m name =>
      match Inputs.get? m.inputs name with
      | some (.literal _) => m.setInput name (.literal seed)
      | _ => m) n }

end Graph

/-- The identifying hash of a workflow document; a document holding an
integer of too many digits to write out has none. -/
def workflowHash (v : Value) : Outcome String := do
  let text ← v.textBy (Value.render Layout.canonical)
  return String.ofList ((Sha256.hexDigest text).toList.take 16)

/-- A workflow ready for submission. -/
structure Compiled where
  graph : Graph
  warnings : List String
  errors : List String

namespace Compiled

/-- The canonical document. -/
def document (c : Compiled) : Value := c.graph.toValue

/-- The hash of the document; empty for an empty document. -/
def hash (c : Compiled) : Outcome String :=
  match c.document with
  | .obj [] => .ok ""
  | v => workflowHash v

/-- Whether the compiled graph has no structural errors. -/
def isValid (c : Compiled) : Bool := c.errors.isEmpty

/-- The document as text, indented by two spaces. -/
def content (c : Compiled) : String := c.graph.serialize

/-- The bare node map: the `nodes` member when it is an object, otherwise the
document's members that are nodes of the graph. -/
def prompt (c : Compiled) : Value :=
  match c.document with
  | .obj fs => match Fields.get? fs "nodes" with
    | some (.obj nodes) => .obj nodes
    | _ => .obj (fs.filter fun p => c.graph.contains p.1)
  | v => v

end Compiled

namespace Graph

/-- Compile a template under a checked request. `randomSeed` is the seed used
when the request asks for a random one and names none. -/
def compile (g : Graph) (s : Settings) (schema : Schema) (r : Request) (rule : NoisePathRule)
    (randomSeed : Int) (strict : Bool) : Outcome Compiled := do
  let filled ← g.fill (.obj r.values)
  let seed := r.seed <|> (if r.randomizeSeed then some randomSeed else none)
  let seeded := match seed with
    | some n => filled.graph.reseed (.int n)
    | none => filled.graph
  let overridden ← seeded.override (.obj (r.overrides.map fun (k, fs) => (k, .obj fs)))
  let injected := (← overridden.injectChain? s r.modifierChain).getD overridden
  let high := (← injected.extendChain? s r.highNoiseChain .high rule).getD injected
  let low := (← high.extendChain? s r.lowNoiseChain .low rule).getD high
  let resolved ← low.resolveBypass s.bypassMaxDepth
  let errors ← resolved.graph.structureErrors schema
  if strict && !errors.isEmpty then
    throw (.compiler (CompilerError.invalidWorkflow "Prepared workflow is invalid" errors))
  let compiled : Compiled := ⟨resolved.graph, filled.warnings ++ resolved.warnings, errors⟩
  -- the hash is taken as the compiled workflow is made
  let _ ← compiled.hash
  return compiled

end Graph

/-- Compile a canonical document (an object, or its JSON text) under the named
parameters of a submission; the parameters are checked before the document is
read. -/
def compileDocument (src : Value) (params : Fields) (s : Settings) (schema : Schema)
    (rule : NoisePathRule) (randomSeed : Int) (strict : Bool) : Outcome Compiled := do
  let r ← Request.ofFields s params
  let g ← Graph.parse src
  g.compile s schema r rule randomSeed strict

end NodeFlow
