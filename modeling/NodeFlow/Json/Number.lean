import NodeFlow.Error
import NodeFlow.Decimal.Text
/-!
# Values as numbers and sequences

`Value.toDouble` reads a value as a double the way a number conversion of the
program's values does: integers round to the nearest double (failing past the
largest one), booleans are one and zero, doubles stay, and text must be a
written number. Any other value is refused. `Value.elements` runs through a
value as a loop over it does.
-/

namespace NodeFlow

namespace Json

/-- The items a value yields when it is run through: an array its items, a text
its characters, an object its names. A scalar that counts as false yields
nothing; any other scalar cannot be run through. -/
def Value.elements : Value → Outcome (List Value)
  | .arr xs => .ok xs
  | .str s => .ok ((Text.characters s).map .str)
  | .obj fs => .ok (fs.map fun p => .str p.1)
  | v => if v.truthy then .error (.notIterable v.typeName) else .ok []

/-- One as a double. -/
def Binary64.one : Binary64 := ⟨0x3FF0000000000000⟩

/-- A value as a double. -/
def Value.toDouble : Value → Outcome Binary64
  | .int n => match Binary64.ofInt? n with
    | some x => .ok x
    | none => .error .overflow
  | .float x => .ok x
  | .bool true => .ok Binary64.one
  | .bool false => .ok Binary64.zero
  | .str s => match Decimal.readDouble? s with
    | some x => .ok x
    | none => .error (.notAFloat (quoteLiteral s))
  | v => .error (.floatArgument v.typeName)

/-- The exact integer value of an integer or boolean. -/
def Value.integral? : Value → Option Int
  | .int n => some n
  | .bool b => some (if b then 1 else 0)
  | _ => none

/-- Equality of scalar values as set members compare them: texts by their
characters, numbers and booleans by their exact value (`1`, `1.0` and `true`
are one key, while a double never equals an integer it only rounds to), two
doubles as doubles compare, null with null. -/
def Value.sameKey (a b : Value) : Bool :=
  match a, b with
  | .str x, .str y => x == y
  | .null, .null => true
  | .float x, .float y => x.numEq y
  | .float x, w | w, .float x => match w.integral? with
    | some n => x.compareInt n == some .eq
    | none => false
  | _, _ => match a.integral?, b.integral? with
    | some x, some y => x == y
    | _, _ => false

end Json

end NodeFlow
