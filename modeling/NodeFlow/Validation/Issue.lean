import NodeFlow.Json.Display
import NodeFlow.Decimal.Text
/-!
# Failed checks of a validated record

A validated record checks each of its fields and collects what failed as
`Issue`s: the path to the field, the kind of check, and the value that failed
it. `IssueKind.code` names a kind and `IssueKind.message` says in one sentence
what the value should have been.

`Issue.report` is the text of a record's validation error: a headline that
counts the issues and names the record, then each issue as its path on a line
of its own, its sentence with the code, the value and the value's type, and a
line pointing to the documentation of the kind. A value is shown as a literal
cut to its first 25 and last 24 bytes when it is longer than 50, and a value
holding an integer too long to write is shown as unprintable.
-/

namespace NodeFlow

open Json

/-- The kinds of failed field check of a validated record, with the bounds
that some of them compare with. -/
inductive IssueKind where
  | missing
  | stringType
  | stringTooShort (least : Nat)
  | stringTooLong (most : Nat)
  | floatType
  | floatParsing
  | intType
  | intParsing
  | intFromFloat
  | boolType
  | boolParsing
  | dictType
  | listType
  | greaterThanEqual (bound : Int)
  | lessThanEqual (bound : Int)
  | extraForbidden
  | finiteNumber
  | modelType (record : String)
  | intParsingSize
  | stringUnicode
deriving DecidableEq, Repr

namespace IssueKind

/-- The name of a kind of failed check. -/
def code : IssueKind → String
  | .missing => "missing"
  | .stringType => "string_type"
  | .stringTooShort _ => "string_too_short"
  | .stringTooLong _ => "string_too_long"
  | .floatType => "float_type"
  | .floatParsing => "float_parsing"
  | .intType => "int_type"
  | .intParsing => "int_parsing"
  | .intFromFloat => "int_from_float"
  | .boolType => "bool_type"
  | .boolParsing => "bool_parsing"
  | .dictType => "dict_type"
  | .listType => "list_type"
  | .greaterThanEqual _ => "greater_than_equal"
  | .lessThanEqual _ => "less_than_equal"
  | .extraForbidden => "extra_forbidden"
  | .finiteNumber => "finite_number"
  | .modelType _ => "model_type"
  | .intParsingSize => "int_parsing_size"
  | .stringUnicode => "string_unicode"

/-- `n character` or `n characters`. -/
def characters (n : Nat) : String := toString n ++ (if n == 1 then " character" else " characters")

/-- What the value should have been. -/
def message : IssueKind → String
  | .missing => "Field required"
  | .stringType => "Input should be a valid string"
  | .stringTooShort n => "String should have at least " ++ characters n
  | .stringTooLong n => "String should have at most " ++ characters n
  | .floatType => "Input should be a valid number"
  | .floatParsing => "Input should be a valid number, unable to parse string as a number"
  | .intType => "Input should be a valid integer"
  | .intParsing => "Input should be a valid integer, unable to parse string as an integer"
  | .intFromFloat => "Input should be a valid integer, got a number with a fractional part"
  | .boolType => "Input should be a valid boolean"
  | .boolParsing => "Input should be a valid boolean, unable to interpret input"
  | .dictType => "Input should be a valid dictionary"
  | .listType => "Input should be a valid list"
  | .greaterThanEqual b => "Input should be greater than or equal to " ++ toString b
  | .lessThanEqual b => "Input should be less than or equal to " ++ toString b
  | .extraForbidden => "Extra inputs are not permitted"
  | .finiteNumber => "Input should be a finite number"
  | .modelType r => "Input should be a valid dictionary or instance of " ++ r
  | .intParsingSize => "Unable to parse input string as an integer, exceeded maximum size"
  | .stringUnicode => "Input should be a valid string, unable to parse raw data as a unicode string"

end IssueKind

/-- One failed field check: the path to the field, what failed, and the value
that failed it. -/
structure Issue where
  loc : List String
  kind : IssueKind
  input : Value

namespace Issue

/-- `a.b.0: kind`. -/
def text (i : Issue) : String := ".".intercalate i.loc ++ ": " ++ i.kind.code

/-- The issue one level down, under a field name or an index. -/
def under (seg : String) (i : Issue) : Issue := { i with loc := seg :: i.loc }

/-- Where the report points readers for each kind of issue: this, then the
kind's code. -/
def documentation : String := "https://errors.pydantic.dev/2.14/v/"

mutual

/-- Whether every integer in a value is short enough to be written. -/
def writable : Value → Bool
  | .int n => (toString n.natAbs).length ≤ Decimal.maxIntegerDigits
  | .arr xs => writableItems xs
  | .obj fs => writableMembers fs
  | _ => true

/-- Whether every item is writable. -/
def writableItems : List Value → Bool
  | [] => true
  | v :: vs => writable v && writableItems vs

/-- Whether every member's value is writable. -/
def writableMembers : List (String × Value) → Bool
  | [] => true
  | (_, v) :: rest => writable v && writableMembers rest

end

/-- The first characters of a list that fit in `n` bytes. -/
def takeBytes : Nat → List Char → List Char
  | _, [] => []
  | n, c :: rest => if c.utf8Size ≤ n then c :: takeBytes (n - c.utf8Size) rest else []

/-- A text longer than 50 bytes cut to its first 25 and last 24 bytes, each
cut between characters, with `...` between them. -/
def clip (s : String) : String :=
  if s.utf8ByteSize ≤ 50 then s
  else
    String.ofList (takeBytes 25 s.toList) ++ "..." ++
      String.ofList (takeBytes 24 s.toList.reverse).reverse

/-- How the report shows a value. -/
def shown (v : Value) : String :=
  if writable v then clip v.literal else "<unprintable " ++ v.typeName ++ " object>"

/-- The lines of one issue in the report. -/
def lines (i : Issue) : String :=
  (if i.loc.isEmpty then "" else ".".intercalate i.loc ++ "\n") ++
    "  " ++ i.kind.message ++ " [type=" ++ i.kind.code ++ ", input_value=" ++ shown i.input ++
    ", input_type=" ++ i.input.typeName ++ "]\n    For further information visit " ++
    documentation ++ i.kind.code

/-- The text of a validation error of the record `title`. -/
def report (title : String) (issues : List Issue) : String :=
  let n := issues.length
  toString n ++ " validation error" ++ (if n == 1 then "" else "s") ++ " for " ++ title ++ "\n" ++
    "\n".intercalate (issues.map lines)

end Issue

end NodeFlow
