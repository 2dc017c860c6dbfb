import NodeFlow.Graph.SlotTypes
import NodeFlow.Graph.Write
/-!
# Bypassed nodes

A bypassed node (mode 4) is skipped when the workflow runs: its consumers read
from its own sources instead. `Graph.resolveBypass` removes every bypassed node
and rewires each input that read from one.

The type an input expects is guessed from its name (`typeOfInputName`). From a
bypassed source the walk steps to the source's first connected input whose
name's type matches the expected one, hop after hop, until it reaches a source
that is not bypassed. The input takes that source if the walk got there within
the hop limit and the source is a node of the graph; otherwise the input is
removed with a warning, so the result never reads from a removed node. The
limit is a `HopLimit`: a whole number, or a double compared exactly (a NaN is
never exceeded); a limit of another kind fails the first walk.

All walks read the graph as it was. Groups lose the removed members, and a
group left empty is dropped.
-/

namespace NodeFlow

open Json

/-- The port type an input name suggests, if any. -/
def typeOfInputName (name : String) : Option String :=
  let n := Text.toLower name
  if ["samples", "latent_image", "latent", "latent_images"].contains n then some "LATENT"
  else if ["model", "unet"].contains n || n.startsWith "model" then some "MODEL"
  else if ["clip", "clip_l", "clip_g"].contains n || n.startsWith "clip" then some "CLIP"
  else if n == "vae" then some "VAE"
  else if ["positive", "negative", "conditioning", "cond"].contains n then some "CONDITIONING"
  else if ["image", "images", "pixels"].contains n then some "IMAGE"
  else if n == "mask" then some "MASK"
  else if n == "noise" then some "NOISE"
  else none

/-- The port type an input name given as a value suggests; only a text can be
lowercased. -/
def typeOfInputNameAt : Value → Outcome (Option String)
  | .str name => .ok (typeOfInputName name)
  | v => .error (.noAttribute v.typeName "lower")

/-- The most hops a walk back may make, as given. -/
inductive HopLimit where
  /-- A whole number of hops. -/
  | whole (n : Int)
  /-- A double, compared exactly with the hop count. -/
  | double (x : Binary64)
  /-- A value of another kind, named by its type, which no count compares with. -/
  | other (typeName : String)

namespace HopLimit

/-- The limit a value gives: booleans count as 0 and 1. -/
def ofValue : Value → HopLimit
  | .int n => .whole n
  | .bool b => .whole (if b then 1 else 0)
  | .float x => .double x
  | v => .other v.typeName

/-- Whether `depth` hops are more than the limit allows. -/
def exceededBy : HopLimit → Nat → Outcome Bool
  | .whole n, d => .ok (n < d)
  | .double x, d => .ok (x.compareInt d == some .lt)
  | .other t, _ => .error (.unordered ">" "int" t)

/-- Writing the limit into the log line of a walk that exceeds it: a whole
number of more than `Decimal.maxIntegerDigits` digits has no text. -/
def logged : HopLimit → Outcome Unit
  | .whole n => do
    let _ ← integerText n
    return ()
  | _ => .ok ()

end HopLimit

/-- What removing the bypassed nodes gave. -/
structure BypassOutcome where
  graph : Graph
  warnings : List String := []
  /-- The ids of the removed nodes, in node order. -/
  removed : List String := []

namespace BypassOutcome

/-- Some node was removed. -/
def changed (r : BypassOutcome) : Bool := !r.removed.isEmpty

end BypassOutcome

namespace Graph

/-- The ids of the bypassed nodes, in order. -/
def bypassedIds (g : Graph) : List String := (g.nodes.filter Node.isBypassed).map (·.id)

/-- One hop back from a bypassed node: its first connection whose input name's
type matches the expected type. -/
def stepBack (g : Graph) (expected : String) (id : String) : Option (String × Int) :=
  match g.get? id with
  | none => none
  | some n => (n.connections.find? fun (name, _, _) =>
      match typeOfInputName name with
      | some t => typesMatch (some t) (some expected)
      | none => false).map fun (_, s, i) => (s, i)

/-- Walk back from a connection through bypassed nodes to the first source that
is not bypassed, counting hops; `none` past the limit, which is logged, or at a
dead end. Every `fuel` step enters a bypassed node, so a walk that runs out of
fuel has gone round a cycle and would never leave it: it goes round until it
passes the limit. -/
def walkBack (g : Graph) (bypassed : List String) (expected : String) (limit : HopLimit) :
    Nat → (String × Int) → Nat → Outcome (Option (String × Int))
  | fuel, current, depth =>
    match limit.exceededBy depth with
    | .error e => .error e
    | .ok true => do
      limit.logged
      return none
    | .ok false =>
      if !bypassed.contains current.1 then .ok (some current)
      else match fuel with
        | 0 => do
          limit.logged
          return none
        | fuel + 1 => match g.stepBack expected current.1 with
          | none => .ok none
          | some up => walkBack g bypassed expected limit fuel up (depth + 1)

/-- Where an input that read from a bypassed node now reads from, if anywhere. -/
def rewire (g : Graph) (bypassed : List String) (expected : String) (limit : HopLimit)
    (start : String × Int) : Outcome (Option (String × Int)) := do
  match ← walkBack g bypassed expected limit (bypassed.length + 1) start 0 with
  | some (s, i) => return if g.contains s then some (s, i) else none
  | none => return none

/-- One input of a live node after rewiring, added to the inputs kept and the
warnings so far: an input that read from a bypassed node reads from where the
walk back ends, or is removed with a warning. -/
def rewireInput (g : Graph) (bypassed : List String) (limit : HopLimit) (n : Node)
    (acc : Inputs × List String) (input : String × InputValue) : Outcome (Inputs × List String) :=
  let (ins, ws) := acc
  let (name, v) := input
  match v with
  | .connection s i =>
    if !bypassed.contains s then .ok (ins ++ [(name, v)], ws)
    else match typeOfInputName name with
      | none =>
        .ok (ins, ws ++ ["Node #" ++ n.id ++ " (" ++ n.classType ++ "): input '" ++ name ++
          "' was connected to bypassed node #" ++ s ++
          " and its type could not be inferred; connection removed"])
      | some t => do
        match ← g.rewire bypassed t limit (s, i) with
        | some (s', i') => return (ins ++ [(name, .connection s' i')], ws)
        | none =>
          return (ins, ws ++ ["Node #" ++ n.id ++ " (" ++ n.classType ++ "): no " ++ t ++
            " source found through bypassed node #" ++ s ++ "; connection removed"])
  | _ => .ok (ins ++ [(name, v)], ws)

/-- The inputs of a live node after rewiring, with the warnings for those removed. -/
def rewireInputs (g : Graph) (bypassed : List String) (limit : HopLimit) (n : Node) :
    Outcome (Inputs × List String) :=
  n.inputs.foldlM (g.rewireInput bypassed limit n) ([], [])

/-- One node of the graph after rewiring, added to the nodes kept and the
warnings so far; a bypassed node is dropped. -/
def resolveNode (g : Graph) (bypassed : List String) (limit : HopLimit)
    (acc : List Node × List String) (n : Node) : Outcome (List Node × List String) := do
  if bypassed.contains n.id then return acc
  else
    let (ins, ws) ← g.rewireInputs bypassed limit n
    return (acc.1 ++ [{ n with inputs := ins }], acc.2 ++ ws)

/-- Remove the bypassed nodes and rewire their consumers, within a hop limit.
Without bypassed nodes the graph comes back as it is. -/
def resolveBypassWithin (g : Graph) (limit : HopLimit) : Outcome BypassOutcome := do
  let bypassed := g.bypassedIds
  if bypassed.isEmpty then return { graph := g }
  else
    let (nodes, warnings) ← g.nodes.foldlM (g.resolveNode bypassed limit) ([], [])
    let groups := (g.groups.map fun gr => { gr with members := gr.members.filter (!bypassed.contains ·) }).filter
      (!·.members.isEmpty)
    return { graph := { g with nodes := nodes, groups := groups }, warnings := warnings, removed := bypassed }

/-- `resolveBypassWithin` for a whole number of hops. -/
def resolveBypass (g : Graph) (maxDepth : Int) : Outcome BypassOutcome :=
  g.resolveBypassWithin (.whole maxDepth)

end Graph

/-- Resolve bypassed nodes in canonical text. Text that does not read as a
canonical workflow comes back unchanged with the reason as its one warning;
text without bypassed nodes comes back unchanged. A resolved graph holding an
integer of too many digits to write out fails. -/
def resolveBypassText (text : String) (maxDepth : Int) : Outcome (String × List String) :=
  match Graph.parse (.str text) with
  | .error (.compiler e) =>
    if e.kind == .parse then .ok (text, [e.message.display]) else .error (.compiler e)
  | .error f => .error f
  | .ok g => do
    let r ← g.resolveBypass maxDepth
    if r.changed then
      if Issue.writable r.graph.toValue then .ok (r.graph.serialize, r.warnings)
      else .error .tooManyDigitsToWrite
    else .ok (text, r.warnings)

end NodeFlow
