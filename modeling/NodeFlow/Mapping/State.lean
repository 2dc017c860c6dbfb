import NodeFlow.Mapping.Candidate
import NodeFlow.Template.Category
import NodeFlow.Json.Writer
import NodeFlow.Json.Reader
/-!
# Mapping state

The mapping state of a workflow lists, for every field of its category, the
candidates found for it and which one is selected (`-1` for none), at the
position it was given. Required
fields come first, then the optional ones. The state is edited by selecting a
candidate for a field and saved as JSON text (`MappingState.toText`), which
`MappingState.ofText` reads back.

`MappingState.analyze` builds the state for a graph: every field with
candidates selects its first one.
-/

namespace NodeFlow

open Json

/-- The position of the selected candidate as it was given: an integer, a flag
(standing for one or zero) or a double, which compares with positions but
names none. -/
inductive Position where
  | index (n : Int)
  | flag (b : Bool)
  | double (x : Binary64)
deriving Inhabited

namespace Position

/-- The position as a value. -/
def toValue : Position → Value
  | .index n => .int n
  | .flag b => .bool b
  | .double x => .float x

/-- How the position compares with an integer; `none` when it has no order. -/
def cmp (p : Position) (n : Int) : Option Ordering :=
  match p with
  | .index k => some (compare k n)
  | .flag b => some (compare (if b then (1 : Int) else 0) n)
  | .double x => x.compareInt n

/-- Whether the position is at least `n`. -/
def atLeast (p : Position) (n : Int) : Bool := p.cmp n == some .gt || p.cmp n == some .eq

/-- Whether the position is below `n`. -/
def below (p : Position) (n : Int) : Bool := p.cmp n == some .lt

end Position

/-- The candidates of one field and the position of the selected one. -/
structure FieldMapping where
  field : FieldInfo
  candidates : List Candidate
  selected : Position
  required : Bool
deriving Inhabited

namespace FieldMapping

/-- The selected candidate, when the position lies within the candidates; a
double within them names none and cannot be read. -/
def selectedCandidate? (m : FieldMapping) : Outcome (Option Candidate) :=
  if m.selected.atLeast 0 && m.selected.below m.candidates.length then
    match m.selected with
    | .index n => .ok m.candidates[n.toNat]?
    | .flag b => .ok m.candidates[if b then 1 else 0]?
    | .double _ => .error (.badIndex "tuple" "float")
  else .ok none

/-- Whether a candidate is selected. -/
def isMapped (m : FieldMapping) : Outcome Bool := do return (← m.selectedCandidate?).isSome

/-- Whether there is a choice to make. -/
def hasMultiple (m : FieldMapping) : Bool := 1 < m.candidates.length

/-- Whether candidates exist but none is selected. -/
def needsRemapping (m : FieldMapping) : Bool := !m.candidates.isEmpty && m.selected.below 0

/-- The refusal of a position outside the candidates. -/
def outOfRange (m : FieldMapping) (index : Value) : Failure :=
  .compiler (CompilerError.invalidParameter m.field.key.display index
    (some ("candidate index out of range (0.." ++ toString ((m.candidates.length : Int) - 1) ++ ")")))

/-- Select the candidate at a position given as a value, or none with `-1`. An
integer, a flag or a double from `-1` up to the number of candidates is kept
as it was given; one outside is refused, and a value of any other kind has no
order with the bounds. -/
def select (m : FieldMapping) (index : Value) : Outcome FieldMapping := do
  let p ← match index with
    | .int n => pure (Position.index n)
    | .bool b => pure (Position.flag b)
    | .float x => pure (Position.double x)
    | v => throw (.unordered "<=" "int" v.typeName)
  if p.atLeast (-1) && p.below m.candidates.length then return { m with selected := p }
  else throw (m.outOfRange index)

/-- Select nothing. -/
def clear (m : FieldMapping) : FieldMapping := { m with selected := .index (-1) }

/-- The saved form of a field mapping. -/
def toValue (m : FieldMapping) : Value :=
  .obj [("fieldKey", m.field.key), ("displayName", m.field.displayName),
    ("description", m.field.description), ("required", .bool m.required),
    ("selectedCandidateIndex", m.selected.toValue),
    ("candidates", .arr (m.candidates.map Candidate.toValue))]

/-- A field mapping read back from its saved form. Key, display name,
description and candidates must be there; the index defaults to the first
candidate and any value counts as the required flag. -/
def ofValue (v : Value) : Outcome FieldMapping := do
  let key ← v.member "fieldKey"
  let name ← v.member "displayName"
  let description ← v.member "description"
  let items ← (← v.member "candidates").iterate
  let candidates ← items.mapM Candidate.ofValue
  let fs := v.fields?.getD []
  let selected ← (Value.memberOr fs "selectedCandidateIndex" (.int 0)).toInteger
  let required := (Value.memberOr fs "required" (.bool true)).truthy
  return ⟨⟨key, name, description⟩, candidates, .index selected, required⟩

end FieldMapping

/-- Where the selected fields are written: field key, node id, input key. -/
abbrev Bindings := List (Value × String × String)

/-- Whether two keys find each other in a map: equal ones do, and so do two
not-a-number doubles, since reading JSON gives every one of them as the same
shared value. -/
def sameKey (a b : Value) : Bool :=
  a.equiv b || match a, b with
    | .float x, .float y => x.isNaN && y.isNaN
    | _, _ => false

/-- Put a binding: a key already there (`sameKey`) keeps its place and takes
the new target. -/
def Bindings.put (bs : Bindings) (key : Value) (target : String × String) : Outcome Bindings :=
  if !key.hashable then .error (.unhashable key.typeName)
  else if bs.any (sameKey ·.1 key) then
    .ok (bs.map fun b => if sameKey b.1 key then (b.1, target) else b)
  else .ok (bs ++ [(key, target)])

/-- The mapping state of a workflow. -/
structure MappingState where
  category : Category
  fields : List FieldMapping
deriving Inhabited

namespace MappingState

/-- Whether every required field has a selection. -/
def allMapped (s : MappingState) : Outcome Bool :=
  s.fields.allM fun m => if m.required then m.isMapped else pure true

/-- The required fields without a selection. -/
def unmapped (s : MappingState) : Outcome (List FieldInfo) := do
  let pending ← s.fields.filterM fun m => if m.required then do return !(← m.isMapped) else pure false
  return pending.map (·.field)

/-- The first field mapping of this key. -/
def get? (s : MappingState) (key : Value) : Option FieldMapping :=
  s.fields.find? (·.field.key.equiv key)

/-- Select the candidate at a position for every field of this key, as
`FieldMapping.select` does; a key of no field changes nothing. -/
def select (s : MappingState) (key : Value) (index : Value) : Outcome MappingState := do
  let fields ← s.fields.mapM fun m => if m.field.key.equiv key then m.select index else .ok m
  return { s with fields := fields }

/-- The node input each selected field is written into, by field key. -/
def bindings (s : MappingState) : Outcome Bindings :=
  s.fields.foldlM (fun bs m => do
    match ← m.selectedCandidate? with
    | some c => Bindings.put bs m.field.key (c.nodeId, c.inputKey)
    | none => .ok bs) []

/-- The saved form of the state. -/
def toValue (s : MappingState) : Value :=
  .obj [("workflowType", .str s.category.code), ("fieldMappings", .arr (s.fields.map FieldMapping.toValue))]

/-- The saved text of the state: inline JSON with every character outside
printable ASCII escaped. A state holding an integer of too many digits to
write out has none. -/
def toText (s : MappingState) : Outcome String := s.toValue.textBy (Value.render Layout.inlineAscii)

/-- A state read back from its saved value; the category is read last. -/
def ofValue (v : Value) : Outcome MappingState := do
  let items ← (← v.member "fieldMappings").iterate
  let fields ← items.mapM FieldMapping.ofValue
  let category ← Category.ofValue (← v.member "workflowType")
  return ⟨category, fields⟩

/-- Whether a failure while reading a saved state means the text is no saved
state (rather than a fault of the reader). -/
def rejectsText (f : Failure) : Bool :=
  f.className == "KeyError" || f.className == "TypeError" || f.className == "ValueError"

/-- A state read back from its saved text. Text that is not a saved state is an
invalid `mapping_state` parameter, shown by its first fifty characters. -/
def ofText (text : String) : Outcome MappingState :=
  let shown := Value.str (String.join ((Text.characters text).take 50))
  let reject (reason : String) (cause : Cause) : Outcome MappingState :=
    .error (.compiler (CompilerError.invalidParameter "mapping_state" shown (some reason) [] [] (some cause)))
  match Value.decode text with
  | .error e =>
    reject (e.message text) ⟨if e.fault.isSyntax then "JSONDecodeError" else "ValueError", e.message text⟩
  | .ok v => match ofValue v with
    | .ok s => .ok s
    | .error f => if rejectsText f then reject f.message ⟨f.className, f.message⟩ else .error f

/-- A state read back from a value that should hold its saved text. Text is
read by `ofText`. A list is no text: it is refused as such and shown by its
first fifty items. A value of any other kind cannot be cut for the report: a
scalar cannot be indexed at all, and an object cannot be cut. -/
def ofSaved : Value → Outcome MappingState
  | .str text => ofText text
  | .arr items =>
    let reason := "the JSON object must be str, bytes or bytearray, not list"
    .error (.compiler (CompilerError.invalidParameter "mapping_state" (.arr (items.take 50)) (some reason)
      [] [] (some ⟨"TypeError", reason⟩)))
  | .obj _ => .error (.unhashable "slice")
  | v => .error (.notSubscriptable v.typeName)

/-- The state of a graph for a category: required fields, then the optional
fields that apply to the graph's class types; a field selects its first
candidate when it has any. -/
def analyze (g : Graph) (category : Category) (schema : Schema) : MappingState :=
  let prompts := g.promptCandidates schema
  let keys := category.requiredKeys.map (·, true) ++ (category.optionalKeys g.classTypes).map (·, false)
  let fields := keys.map fun (key, required) =>
    let candidates := g.fieldCandidates schema prompts key
    ({ field := FieldInfo.ofKey key
       candidates := candidates
       selected := .index (if candidates.isEmpty then -1 else 0)
       required := required } : FieldMapping)
  ⟨category, fields⟩

/-- The state of a graph for the given category, or for the one recognised from
its class types; a graph of no recognisable category is refused. -/
def ofGraph (g : Graph) (schema : Schema) (given : Option Category) : Outcome MappingState :=
  match given <|> Category.detect g.classTypes with
  | some c => .ok (analyze g c schema)
  | none => .error (.compiler (CompilerError.invalidWorkflow "Could not determine the workflow type"
      ["No model loader, image input or video output node found"]))

end MappingState

end NodeFlow
