import NodeFlow.Json.Number
import NodeFlow.Json.Display
/-!
# Reading into values of unknown shape

A saved document may hold any value where a record is expected. These are the
accessors that such a reader goes through, each failing the way a dynamic
program does when the value has the wrong kind:

* `Value.member` reads a named member: an object without it is a missing key,
  a list or a text is indexed by a name, any other value cannot be indexed.
* `Value.iterate` runs through a value strictly: lists, texts and objects
  only (unlike `Value.elements`, which lets a false scalar stand for nothing).
* `Value.toInteger` reads a value as an integer: doubles are cut toward zero,
  texts must be written integers, booleans count as one and zero.
* `Value.equiv` is the equality of values: numbers of either kind by their
  exact numeric value, lists item by item, objects as maps.
-/

namespace NodeFlow

namespace Json

namespace Value

/-- The member `key` of an object value. -/
def member (v : Value) (key : String) : Outcome Value :=
  match v with
  | .obj fs => match Fields.get? fs key with
    | some w => .ok w
    | none => .error (.missingKey (quoteLiteral key))
  | .arr _ => .error (.badIndex "list" "str")
  | .str _ => .error (.badIndex "str" "str")
  | w => .error (.notSubscriptable w.typeName)

/-- The member `key` of an object, or `fallback` when the object lacks it. -/
def memberOr (fs : Fields) (key : String) (fallback : Value) : Value :=
  (Fields.get? fs key).getD fallback

/-- The items of a list, the characters of a text or the names of an object. -/
def iterate : Value → Outcome (List Value)
  | .arr xs => .ok xs
  | .str s => .ok ((Text.characters s).map .str)
  | .obj fs => .ok (fs.map fun p => .str p.1)
  | v => .error (.notIterable v.typeName)

/-- How the integer `n` compares with a value, `n` standing left of the
operator `op`: numbers and booleans compare exactly (`none` against a NaN,
for which no comparison holds); a value of another kind has no order with
numbers and fails. -/
def compareFrom (op : String) (n : Int) : Value → Outcome (Option Ordering)
  | .int k => .ok (some (compare n k))
  | .bool b => .ok (some (compare n (if b then 1 else 0)))
  | .float x => .ok ((x.compareInt n).map Ordering.swap)
  | v => .error (.unordered op "int" v.typeName)

/-- Whether a value lies in `0 ≤ v < size`, the lower bound checked first and
the upper only when the lower holds. -/
def withinSize (v : Value) (size : Nat) : Outcome Bool := do
  match ← v.compareFrom "<=" 0 with
  | some .lt | some .eq => return (← v.compareFrom ">" size) == some .gt
  | _ => return false

/-- The position an integer or a boolean names in a list. -/
def listIndex? : Value → Option Nat
  | .int n => some n.toNat
  | .bool b => some (if b then 1 else 0)
  | _ => none

/-- The first element of a value, as indexing it by zero gives it: the first
item of a list, the first character of a text; an object has no member `0`,
and a scalar cannot be indexed. -/
def first : Value → Outcome Value
  | .arr (x :: _) => .ok x
  | .arr [] => .error (.plain "list index out of range")
  | .str s => match Text.codePoints s.toList with
    | n :: _ => .ok (.str (String.ofList (Text.ofCode n)))
    | [] => .error (.plain "string index out of range")
  | .obj _ => .error (.missingKey "0")
  | v => .error (.notSubscriptable v.typeName)

/-- A value read as an integer. -/
def toInteger : Value → Outcome Int
  | .int n => .ok n
  | .bool b => .ok (if b then 1 else 0)
  | .float x =>
    if x.isNaN then .error .nanToInteger
    else match x.truncate? with
      | some n => .ok n
      | none => .error .infinityToInteger
  | .str s => match Decimal.readInteger s with
    | .value n => .ok n
    | .tooLong n => .error (.digitLimit n)
    | .invalid => .error (.notAnInteger (quoteLiteral s))
  | v => .error (.intArgument v.typeName)

/-- A value that can be a map key or set member: anything but a list or object. -/
def hashable : Value → Bool
  | .arr _ | .obj _ => false
  | _ => true

/-- The value of a number or boolean that is a whole number. -/
def wholeNumber? : Value → Option Int
  | .int n => some n
  | .bool b => some (if b then 1 else 0)
  | .float x => x.toInt?
  | _ => none

/-- Equality of two scalars that are numbers or booleans: two doubles as
doubles compare, otherwise by exact value (a double equals an integer only when
it is that whole number). -/
def numberEq (a b : Value) : Bool :=
  match a, b with
  | .float x, .float y => x.numEq y
  | .float x, w | w, .float x => match w.wholeNumber? with
    | some n => x.toInt? == some n
    | none => false
  | _, _ => match a.wholeNumber?, b.wholeNumber? with
    | some m, some n => m == n
    | _, _ => false

mutual

/-- Equality of values: numbers and booleans by value, texts by characters,
lists item by item, objects as maps (same names, equal members). -/
def equiv : Value → Value → Bool
  | .null, .null => true
  | .str x, .str y => x == y
  | .arr xs, .arr ys => equivItems xs ys
  | .obj fs, .obj gs => fs.length == gs.length && equivMembers fs gs
  | .null, _ | _, .null | .str _, _ | _, .str _ | .arr _, _ | _, .arr _ | .obj _, _ | _, .obj _ => false
  | a, b => numberEq a b

/-- Lists of equal length whose items are pairwise equal. -/
def equivItems : List Value → List Value → Bool
  | [], [] => true
  | x :: xs, y :: ys => equiv x y && equivItems xs ys
  | _, _ => false

/-- Every member of the first object has an equal member of that name in `gs`. -/
def equivMembers : List (String × Value) → Fields → Bool
  | [], _ => true
  | (k, v) :: rest, gs => (match Fields.get? gs k with
    | some w => equiv v w
    | none => false) && equivMembers rest gs

end

end Value

end Json

end NodeFlow
