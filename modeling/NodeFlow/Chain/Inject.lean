import NodeFlow.Chain.Selection
import NodeFlow.Graph.Write
import NodeFlow.Graph.Lookup
/-!
# Placing chains in a graph

`Graph.injectChain?` puts a chain between the model source — the first node of
the first configured loader class present — and every input that reads its
output 0; those inputs then read the chain's last node. `Graph.extendChain?`
appends a chain after the modifier that feeds a model-sampling node on one
noise path, and points that sampling node's model input at the chain's end.

New nodes take fresh ids counting up from `Graph.nextId` with the configured
floor; each is fed by the one before, the first by the node it follows. Both
return `none` when there is nothing to do: an empty chain, no source, no
consumer, no matching sampling node.

Which noise paths a sampling node feeds is a classifier's call
(`Graph.extendChainBy?` takes any). The one the program ships is the start
step rule (`NoisePathRule`): it looks at the advanced samplers fed by the node,
and one that starts at step 0 runs the high-noise model, any other the
low-noise model.
-/

namespace NodeFlow

open Json

/-- The two noise paths of a dual-model video workflow. -/
inductive NoisePath where
  | high
  | low
deriving DecidableEq, Repr

namespace NoisePath

/-- The name of a path. -/
def name : NoisePath → String
  | .high => "high"
  | .low => "low"

/-- The path with a name. -/
def ofValue : Value → Outcome NoisePath
  | .str "high" => .ok .high
  | .str "low" => .ok .low
  | v => .error (.notAMember v.literal "NoisePath")

end NoisePath

/-- The start step rule: samplers of the class `samplerClass` read their start
step from the literal input `startInput`. Both are given as values, as a caller
passes them: a class that is no text names no sampler, and a start input that
is no text names no input, so every sampler it is asked of starts at no step;
a list or an object cannot name an input at all. -/
structure NoisePathRule where
  samplerClass : Value
  startInput : Value := .str "start_at_step"

namespace NoisePathRule

/-- The rule with the configured advanced sampler class. -/
def default (s : Settings) : NoisePathRule := ⟨.str s.advancedSamplerClassType, .str "start_at_step"⟩

/-- The rule a caller's values give: a sampler class that is false (`truthy`)
gives way to the configured one; a start input, when given, is taken as it
is. -/
def ofValues (s : Settings) (samplerClass : Value) (startInput : Option Value) : NoisePathRule :=
  ⟨if samplerClass.truthy then samplerClass else .str s.advancedSamplerClassType,
    startInput.getD (.str "start_at_step")⟩

/-- A start step that counts as zero: a number or boolean equal to zero. -/
def startsAtZero : Value → Bool
  | .int n => n == 0
  | .bool b => !b
  | .float x => x.numEq Binary64.zero
  | _ => false

/-- The paths a sampling node feeds, through the samplers whose model input
reads it. -/
def classify (r : NoisePathRule) (g : Graph) (samplingId : String) : Outcome (List NoisePath) := do
  let paths ← (g.nodesOfTypeAt r.samplerClass).filterMapM fun n => do
    match Inputs.get? n.inputs "model" with
    | some (.connection s _) =>
      if s != samplingId then return none
      else
        let start ← n.literalAt r.startInput (.int (-1))
        return some (if startsAtZero start then NoisePath.high else NoisePath.low)
    | _ => return none
  return (if paths.contains .high then [NoisePath.high] else []) ++
    (if paths.contains .low then [NoisePath.low] else [])

end NoisePathRule

namespace Graph

/-- A modifier node with an id, fed by output 0 of `source`. -/
def modifierNode (s : Settings) (id : String) (sel : Selection) (source : String) : Node :=
  { id := id, classType := s.modifierClassType
    inputs := [("lora_name", .literal sel.name), ("strength_model", .literal (.float sel.strength)),
      ("model", .connection source 0)] }

/-- Append the chain's nodes after `source`: the graph with them and the last
id. Each id is written out in decimal, so one of too many digits fails. -/
def appendChain (s : Settings) (g : Graph) (c : Chain) (source : String) : Outcome (Graph × String) := do
  let first ← g.nextId s.injectedIdFloor
  let (g', last, _) ← c.foldlM (fun (acc : Graph × String × Int) sel => do
    let (g, prev, next) := acc
    let n := modifierNode s (← integerText next) sel prev
    return (g.insert n, n.id, next + 1)) (g, source, first)
  return (g', last)

/-- The model source: the first node of the first configured loader class present. -/
def modelSource? (s : Settings) (g : Graph) : Option Node :=
  s.modelSourceClassTypes.findSome? fun ct => (g.nodesOfType ct).head?

/-- The inputs that read output 0 of a node: node id and input name. -/
def consumersOf (g : Graph) (id : String) : List (String × String) :=
  g.nodes.flatMap fun n => n.connections.filterMap fun (name, src, i) =>
    if src == id && i == 0 then some (n.id, name) else none

/-- Put a chain after the model source and make its consumers read the chain's
end; `none` when there is nothing to do. -/
def injectChain? (s : Settings) (g : Graph) (c : Chain) : Outcome (Option Graph) := do
  if c.isEmpty then return none
  let some src := modelSource? s g | return none
  let consumers := g.consumersOf src.id
  if consumers.isEmpty then return none
  let (g', last) ← appendChain s g c src.id
  return some (consumers.foldl (fun acc (id, name) =>
    acc.modify id fun n => n.setInput name (.connection last 0)) g')

/-- What the search for the sampling node to extend makes of one node: its id
and its modifier's, when its model input reads a modifier and `classify` puts
it on `path`. A node whose model input reads no modifier is not classified. -/
def samplingTarget (s : Settings) (g : Graph) (path : NoisePath)
    (classify : Graph → String → Outcome (List NoisePath)) (sampling : Node) :
    Outcome (Option (String × String)) := do
  match Inputs.get? sampling.inputs "model" with
  | some (.connection src _) =>
    match g.get? src with
    | some m =>
      if m.classType != s.modifierClassType then return none
      else
        let paths ← classify g sampling.id
        if paths.contains path then return some (sampling.id, m.id) else return none
    | none => return none
  | _ => return none

/-- Append a chain after the modifier feeding the first sampling node on a noise
path, as `classify` assigns sampling nodes to paths; `none` when there is
nothing to do. -/
def extendChainBy? (s : Settings) (g : Graph) (c : Chain) (path : NoisePath)
    (classify : Graph → String → Outcome (List NoisePath)) : Outcome (Option Graph) := do
  if c.isEmpty then return none
  match ← (g.nodesOfType s.samplingClassType).findSomeM? (g.samplingTarget s path classify) with
  | none => return none
  | some (samplingId, modifierId) =>
    let (g', last) ← appendChain s g c modifierId
    return some (g'.modify samplingId fun n => n.setInput "model" (.connection last 0))

/-- Extend a noise path's chain with the start step rule deciding the paths. -/
def extendChain? (s : Settings) (g : Graph) (c : Chain) (path : NoisePath) (rule : NoisePathRule) :
    Outcome (Option Graph) :=
  g.extendChainBy? s c path rule.classify

end Graph

end NodeFlow
