import NodeFlow.Json.Value
import NodeFlow.Decimal.Notation
import NodeFlow.Text.Surrogate
/-!
# Writing JSON text

A `Layout` fixes how a value is written: on one line or indented, the separators
between items and between a name and its value, whether members are sorted by
name, and whether text outside ASCII is escaped. Doubles are written with their
shortest digits (`Decimal.Notation.jsonLike`). A lone surrogate half is
escaped as itself when text outside ASCII is escaped, and kept otherwise.
Sorted members follow the code points of their names.

An empty array or object is written `[]` or `{}` in every layout. With an
indent, each item starts a new line indented one step deeper than its
container, and the closing bracket stands on a line of its own.
-/

namespace NodeFlow

namespace Json

/-- How a value is written. -/
structure Layout where
  /-- The text of one indentation step; `none` writes everything on one line. -/
  indent : Option String
  itemSep : String
  keySep : String
  sortKeys : Bool
  asciiOnly : Bool

namespace Layout

/-- One line, `", "` between items and `": "` after names, text kept as is. -/
def inline : Layout := ⟨none, ", ", ": ", false, false⟩

/-- One line with the default separators and everything outside ASCII escaped. -/
def inlineAscii : Layout := { inline with asciiOnly := true }

/-- `n` spaces per level, `","` between items and `": "` after names. -/
def indented (n : Nat) (asciiOnly : Bool) : Layout :=
  ⟨some (String.ofList (List.replicate n ' ')), ",", ": ", false, asciiOnly⟩

/-- Sorted members, no spaces, ASCII only: one text per value, whatever the
order its members were written in. -/
def canonical : Layout := ⟨none, ",", ":", true, true⟩

end Layout

/-- Four lowercase hexadecimal digits. -/
def hex4 (n : Nat) : String :=
  let ds := Nat.toDigits 16 n
  String.ofList (List.replicate (4 - ds.length) '0' ++ ds)

/-- The escape of one code point inside a string. Without `asciiOnly` a code
point is kept as the characters that hold it. -/
def escapeCode (asciiOnly : Bool) (n : Nat) : String :=
  match Char.ofNat n with
  | '"' => "\\\""
  | '\\' => "\\\\"
  | '\n' => "\\n"
  | '\r' => "\\r"
  | '\t' => "\\t"
  | '\x08' => "\\b"
  | '\x0c' => "\\f"
  | _ =>
    if Text.isSurrogateCode n then
      if asciiOnly then "\\u" ++ hex4 n else String.ofList (Text.ofCode n)
    else if n < 0x20 then "\\u" ++ hex4 n
    else if asciiOnly ∧ 0x7e < n then
      if n < 0x10000 then "\\u" ++ hex4 n
      else
        let v := n - 0x10000
        "\\u" ++ hex4 (0xD800 + v / 0x400) ++ "\\u" ++ hex4 (0xDC00 + v % 0x400)
    else String.ofList (Text.ofCode n)

/-- A string in double quotes with its escapes. -/
def quote (asciiOnly : Bool) (s : String) : String :=
  "\"" ++ String.join ((Text.codePoints s.toList).map (escapeCode asciiOnly)) ++ "\""

/-- Pairs sorted by the code points of their first part, the order of equal
ones kept. -/
def sortByName {α : Type} (ps : List (String × α)) : List (String × α) :=
  ps.mergeSort (fun a b => Text.codeLE a.1 b.1)

namespace Writer

/-- The text that opens a line at a nesting level, or nothing on one line. -/
def newline (l : Layout) (level : Nat) : Option String :=
  l.indent.map fun step => "\n" ++ String.join (List.replicate level step)

/-- Surround non-empty item texts with brackets, separators and line breaks. -/
def enclose (l : Layout) (level : Nat) (openB closeB : String) (parts : List String) : String :=
  match parts with
  | [] => openB ++ closeB
  | _ =>
    match newline l (level + 1), newline l level with
    | some inner, some outer =>
      openB ++ inner ++ String.intercalate (l.itemSep ++ inner) parts ++ outer ++ closeB
    | _, _ => openB ++ String.intercalate l.itemSep parts ++ closeB

mutual

/-- The text of a value at a nesting level. -/
def value (l : Layout) (level : Nat) : Value → String
  | .null => "null"
  | .bool true => "true"
  | .bool false => "false"
  | .int n => toString n
  | .float x => Decimal.Notation.jsonLike.render x
  | .str s => quote l.asciiOnly s
  | .arr xs => enclose l level "[" "]" (items l level xs)
  | .obj fs =>
    let ms := members l level fs
    enclose l level "\x7b" "\x7d" ((if l.sortKeys then sortByName ms else ms).map (·.2))

/-- The texts of array items one level down. -/
def items (l : Layout) (level : Nat) : List Value → List String
  | [] => []
  | v :: vs => value l (level + 1) v :: items l level vs

/-- The names and texts of object members one level down. -/
def members (l : Layout) (level : Nat) : List (String × Value) → List (String × String)
  | [] => []
  | (k, v) :: rest =>
    (k, quote l.asciiOnly k ++ l.keySep ++ value l (level + 1) v) :: members l level rest

end

end Writer

/-- The text of a value in a layout. -/
def Value.render (l : Layout) (v : Value) : String := Writer.value l 0 v

end Json

end NodeFlow
