import NodeFlow.Json.Value
import NodeFlow.Decimal.Notation
import NodeFlow.Text.Printable
import NodeFlow.Text.Surrogate
/-!
# Values as message text

Messages show values the way the program's own literals are written:
`None`, `True` and `False`, doubles with their shortest digits (`1.0`, `1e-05`),
strings in single quotes (double quotes when the text holds a single quote and
no double quote), arrays in square brackets and objects as `{'k': 'v'}`.

`Value.display` is that text, except that a string at the top stands for
itself; `Value.literal` quotes strings at every level. Both write integers of any
length; text the program builds from a value it was given, such as a filled
placeholder, goes through `Value.textBy`, which fails on an integer of more than
`Decimal.maxIntegerDigits` digits as the program does.
-/

namespace NodeFlow

namespace Json

/-- Two lowercase hexadecimal digits, or more when the number needs them, padded
to `width`. -/
def hexPadded (width n : Nat) : String :=
  let ds := Nat.toDigits 16 n
  String.ofList (List.replicate (width - ds.length) '0' ++ ds)

/-- The escape of one code point inside a quoted literal with quote `q`. -/
def literalCode (q : Char) (n : Nat) : String :=
  let c := Char.ofNat n
  if Text.isSurrogateCode n then "\\u" ++ hexPadded 4 n
  else if c == q || c == '\\' then "\\" ++ String.singleton c
  else if c == '\t' then "\\t"
  else if c == '\n' then "\\n"
  else if c == '\r' then "\\r"
  else if Text.isPrintable c then String.ofList (Text.ofCode n)
  else if n < 0x100 then "\\x" ++ hexPadded 2 n
  else if n < 0x10000 then "\\u" ++ hexPadded 4 n
  else "\\U" ++ hexPadded 8 n

/-- A text as a quoted literal. -/
def quoteLiteral (s : String) : String :=
  let q := if s.contains '\'' && !s.contains '"' then '"' else '\''
  String.singleton q ++ String.join ((Text.codePoints s.toList).map (literalCode q)) ++
    String.singleton q

namespace Value

mutual

/-- A value as a literal, strings quoted. -/
def literal : Value → String
  | .null => "None"
  | .bool true => "True"
  | .bool false => "False"
  | .int n => toString n
  | .float x => Decimal.Notation.shortRepr.render x
  | .str s => quoteLiteral s
  | .arr xs => "[" ++ ", ".intercalate (literalItems xs) ++ "]"
  | .obj fs => "\x7b" ++ ", ".intercalate (literalMembers fs) ++ "\x7d"

/-- The literals of array items. -/
def literalItems : List Value → List String
  | [] => []
  | v :: vs => literal v :: literalItems vs

/-- The literals of object members, `'name': value`. -/
def literalMembers : List (String × Value) → List String
  | [] => []
  | (k, v) :: rest => (quoteLiteral k ++ ": " ++ literal v) :: literalMembers rest

end

/-- A value as message text: a string stands for itself, anything else is its
literal. -/
def display : Value → String
  | .str s => s
  | v => literal v

end Value

end Json

end NodeFlow
