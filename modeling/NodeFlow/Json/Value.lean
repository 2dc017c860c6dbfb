import NodeFlow.Decimal.Binary64
/-!
# JSON values

A document is a tree of values. Integers and doubles are distinct kinds: an
integer has no size limit and a double keeps its bits. An object is the list of
its members in the order they were first written; `Fields.insert` keeps that
order and gives a repeated name its last value.
-/

namespace NodeFlow

namespace Json

/-- A JSON value. -/
inductive Value where
  | null
  | bool (b : Bool)
  | int (n : Int)
  | float (x : Binary64)
  | str (s : String)
  | arr (items : List Value)
  | obj (fields : List (String × Value))
deriving Inhabited, Repr

/-- The members of an object, in order. -/
abbrev Fields := List (String × Value)

namespace Fields

/-- The value of the first member with this name. -/
def get? (fs : Fields) (key : String) : Option Value :=
  (fs.find? (fun p => p.1 == key)).map (·.2)

/-- Whether some member has this name. -/
def has (fs : Fields) (key : String) : Bool := fs.any (fun p => p.1 == key)

/-- Set a member: a present name keeps its place and takes the new value, a new
name goes last. -/
def insert (fs : Fields) (key : String) (v : Value) : Fields :=
  if has fs key then fs.map (fun p => if p.1 == key then (key, v) else p)
  else fs ++ [(key, v)]

/-- Set a member only if the name is not present yet. -/
def insertIfAbsent (fs : Fields) (key : String) (v : Value) : Fields :=
  if has fs key then fs else fs ++ [(key, v)]

/-- Build an object's members from pairs in order, a repeated name keeping its
first place and its last value. -/
def ofPairs (ps : List (String × Value)) : Fields := ps.foldl (fun acc p => insert acc p.1 p.2) []

/-- The names, in order. -/
def keys (fs : Fields) : List String := fs.map (·.1)

end Fields

namespace Value

/-- The member of an object with this name; `none` for a missing name or a
value that is not an object. -/
def get? : Value → String → Option Value
  | obj fs, key => Fields.get? fs key
  | _, _ => none

/-- The members of an object. -/
def fields? : Value → Option Fields
  | obj fs => some fs
  | _ => none

/-- The items of an array. -/
def items? : Value → Option (List Value)
  | arr xs => some xs
  | _ => none

/-- The text of a string. -/
def str? : Value → Option String
  | str s => some s
  | _ => none

/-- An integer that is not a boolean. -/
def int? : Value → Option Int
  | int n => some n
  | _ => none

/-- The name of a value's kind as messages spell it. -/
def typeName : Value → String
  | null => "NoneType"
  | bool _ => "bool"
  | int _ => "int"
  | float _ => "float"
  | str _ => "str"
  | arr _ => "list"
  | obj _ => "dict"

/-- Truth of a value as a condition: null, false, zero, and empty text,
arrays and objects are false. -/
def truthy : Value → Bool
  | null => false
  | bool b => b
  | int n => n != 0
  | float x => !(x.numEq Binary64.zero)
  | str s => !s.isEmpty
  | arr xs => !xs.isEmpty
  | obj fs => !fs.isEmpty

/-- Whether the value is an object. -/
def isObj : Value → Bool
  | obj _ => true
  | _ => false

/-- Whether the value is an array. -/
def isArr : Value → Bool
  | arr _ => true
  | _ => false

/-- A double from a float value. -/
def double (x : Float) : Value := float (Binary64.ofFloat x)

end Value

end Json

end NodeFlow
