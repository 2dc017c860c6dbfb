import NodeFlow.Schema.Basic
import NodeFlow.Json.Access
/-!
# Asking a schema about values

The questions a caller may put to a schema with keys of any kind. A class
type is looked up as a key: text finds its description, any other scalar finds
none, and a list or an object cannot be a key at all. An input name is matched
by equality, so a name that is not text matches no input. An output position
must lie in `0 ≤ i < outputs` before it is read: a value that is no number
cannot be compared with a position, and a double within the outputs cannot
index them, which are held as a tuple.
-/

namespace NodeFlow

open Json

/-- The input of a description named by a value. -/
def NodeType.inputNamed? (t : NodeType) (name : Value) : Option InputDecl :=
  match name with
  | .str n => t.input? n
  | _ => none

namespace Schema

/-- The description of a class type given as a value. -/
def findValue? (s : Schema) (classType : Value) : Outcome (Option NodeType) :=
  match classType with
  | .str ct => .ok (s.find? ct)
  | v => if v.hashable then .ok none else .error (.unhashable v.typeName)

/-- Whether the schema knows a class type given as a value. -/
def hasValue (s : Schema) (classType : Value) : Outcome Bool :=
  return (← s.findValue? classType).isSome

/-- The declared type of an input, both named by values. -/
def inputTypeOf (s : Schema) (classType name : Value) : Outcome (Option String) :=
  return (← s.findValue? classType).bind fun t => (t.inputNamed? name).map (·.type)

/-- The declared type of an output of a class, by a position given as a value. -/
def outputTypeOf (s : Schema) (classType index : Value) : Outcome (Option String) := do
  match ← s.findValue? classType with
  | none => return none
  | some t =>
    if ← index.withinSize t.outputs.length then
      match index.listIndex? with
      | some i => return (t.outputs[i]?).map (·.type)
      | none => throw (.badIndex "tuple" index.typeName)
    else return none

/-- The options of an input, both named by values; empty when none are declared. -/
def optionsOf (s : Schema) (classType name : Value) : Outcome (List Value) :=
  return match ← s.findValue? classType with
    | some t => ((t.inputNamed? name).map (·.options)).getD []
    | none => []

end Schema

end NodeFlow
