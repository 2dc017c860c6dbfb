import NodeFlow.Text.Digit
import NodeFlow.Decimal.Shortest
/-!
# Numbers written as text

The number conversions of the program's values read text in three steps.
First the text is brought to its ASCII form (`asciiForm`): white space beyond
ASCII becomes a space, a decimal digit of any script becomes its ASCII digit,
and the first other character beyond ASCII ends the text with a `?`, which no
reading accepts. Then ASCII blanks are dropped at both ends. Last the rest must
be one written number:

* an integer (`readInteger`) is an optional sign and decimal digits, which
  single underscores may group; one of more than `maxIntegerDigits` digits is
  refused as too long, whatever follows it;
* a double (`readDouble?`) is an optional sign and then `inf`, `infinity` or
  `nan` in any case, or digits with an optional fraction (`1.`, `.5`) and an
  optional exponent. Underscores may stand anywhere in the text between two
  digits, and are dropped before the blanks are.
-/

/-!
## Reading a decimal as a double

`ofScientific neg c k` is the double nearest to `± c · 10 ^ k`. Far outside the
range of doubles the answer is known without arithmetic: a value of at least
`10 ^ 310` is an infinity and one below `10 ^ -330` is a zero, so huge written
exponents cost nothing.
-/
namespace NodeFlow

namespace Decimal

/-- The double nearest to `± c · 10 ^ k`, a tie going to the even significand. -/
def ofScientific (negative : Bool) (c : Nat) (k : Int) : Binary64 :=
  if c = 0 then Binary64.ofRatio negative 0 1
  else
    -- 10 ^ (mag - 1) ≤ c · 10 ^ k < 10 ^ mag
    let mag : Int := digitCount c + k
    if 310 < mag then Binary64.assemble negative 0 972
    else if mag < -330 then Binary64.ofRatio negative 0 1
    else Binary64.ofRatio negative (c * Nat.pow 10 k.toNat) (Nat.pow 10 (-k).toNat)

/-- The value of a run of ASCII digits. -/
def digitsValue (ds : List Char) : Nat :=
  ds.foldl (fun acc d => acc * 10 + (d.toNat - '0'.toNat)) 0

/-- The most digits a written integer may have to be read: a longer one is
refused rather than converted. -/
def maxIntegerDigits : Nat := 4300

/-- Why an integer of `n` digits is refused. -/
def digitLimitText (n : Nat) : String :=
  "Exceeds the limit (" ++ toString maxIntegerDigits ++
    " digits) for integer string conversion: value has " ++ toString n ++
    " digits; use sys.set_int_max_str_digits() to increase the limit"

/-- Why an integer of more than `maxIntegerDigits` digits is not written out. -/
def writeLimitText : String :=
  "Exceeds the limit (" ++ toString maxIntegerDigits ++
    " digits) for integer string conversion; use sys.set_int_max_str_digits() to increase the limit"

end Decimal

/-!
## Blank characters

The white space of the Unicode standard as text trimming understands it: the
ASCII blanks and controls `\t \n \x0b \x0c \r`, the separators `\x1c`–`\x1f`,
and the non-ASCII spaces and line separators. `trim` removes them from both ends.

Two narrower classes serve number readers and validated records: the ASCII
blanks (`isAsciiBlank`), and the characters with the Unicode White_Space
property (`isWhiteSpace`), which leave out the separators `\x1c`–`\x1f`;
`trimWhiteSpace` removes those from both ends.
-/

namespace Text

/-- Whether a character is white space. -/
def isBlank (c : Char) : Bool :=
  let n := c.toNat
  (0x09 ≤ n ∧ n ≤ 0x0d) || (0x1c ≤ n ∧ n ≤ 0x20) || n == 0x85 || n == 0xa0 ||
    n == 0x1680 || (0x2000 ≤ n ∧ n ≤ 0x200a) || n == 0x2028 || n == 0x2029 ||
    n == 0x202f || n == 0x205f || n == 0x3000

/-- A text without white space at either end. -/
def trim (s : String) : String :=
  String.ofList ((s.toList.dropWhile isBlank).reverse.dropWhile isBlank).reverse

/-- Whether a character is an ASCII blank: tab, line feed, vertical tab, form
feed, carriage return or space. -/
def isAsciiBlank (c : Char) : Bool := c == ' ' || (0x09 ≤ c.toNat && c.toNat ≤ 0x0d)

/-- Whether a character has the White_Space property: a blank that is not one of
the separators `\x1c`–`\x1f`. -/
def isWhiteSpace (c : Char) : Bool := isBlank c && !(0x1c ≤ c.toNat && c.toNat ≤ 0x1f)

/-- A text without White_Space characters at either end. -/
def trimWhiteSpace (s : String) : String :=
  String.ofList ((s.toList.dropWhile isWhiteSpace).reverse.dropWhile isWhiteSpace).reverse

end Text

namespace Decimal

/-- What reading a written integer gives. -/
inductive IntReading where
  /-- The integer written. -/
  | value (n : Int)
  /-- A number too long to be read, with its length. -/
  | tooLong (length : Nat)
  /-- Text that is no written integer. -/
  | invalid
deriving DecidableEq, Repr

/-- The integer read, if there is one. -/
def IntReading.toOption : IntReading → Option Int
  | .value n => some n
  | _ => none

/-- Whether underscores stand only between two digits, one at a time. -/
def underscoresWellPlaced (cs : List Char) : Bool :=
  let rec go : List Char → Option Char → Bool
    | [], _ => true
    | '_' :: rest, prev =>
      match prev, rest with
      | some p, n :: _ => p.isDigit && n.isDigit && go rest (some '_')
      | _, _ => false
    | c :: rest, _ => go rest (some c)
  go cs none

/-- Whether two underscores stand side by side. -/
def hasDoubleUnderscore : List Char → Bool
  | '_' :: '_' :: _ => true
  | _ :: rest => hasDoubleUnderscore rest
  | [] => false

/-- Lowercase ASCII letters. -/
def asciiLower (cs : List Char) : List Char := cs.map Char.toLower

/-- A sign and what follows it: `-` is negative, `+` or none positive. -/
def splitSign : List Char → Bool × List Char
  | '-' :: r => (true, r)
  | '+' :: r => (false, r)
  | r => (false, r)

/-- A magnitude with a sign. -/
def signed (negative : Bool) (n : Nat) : Int := if negative then -(n : Int) else n

/-- A double in ASCII: sign, then a word or a decimal numeral. -/
def ofAscii? (cs : List Char) : Option Binary64 :=
  let (neg, body) := splitSign cs
  let word := asciiLower body
  if word = "inf".toList ∨ word = "infinity".toList then
    some (Binary64.assemble neg 0 972)
  else if word = "nan".toList then some ⟨0x7FF8000000000000⟩
  else
    let whole := body.takeWhile Char.isDigit
    let rest := body.dropWhile Char.isDigit
    let (frac, rest) := match rest with
      | '.' :: r => (r.takeWhile Char.isDigit, r.dropWhile Char.isDigit)
      | r => ([], r)
    if whole.isEmpty ∧ frac.isEmpty then none
    else
      let expo : Option Int := match rest with
        | [] => some 0
        | e :: r =>
          if e == 'e' || e == 'E' then
            let (eneg, ds) := splitSign r
            if !ds.isEmpty && ds.all Char.isDigit then some (signed eneg (digitsValue ds))
            else none
          else none
      expo.map fun k => ofScientific neg (digitsValue (whole ++ frac)) (k - frac.length)

/-- The ASCII form of a text: white space beyond ASCII becomes a space, decimal
digits of any script become ASCII digits, and at the first other character from
U+007F on the text ends with `?`. -/
def asciiForm (s : String) : List Char :=
  let rec go : List Char → List Char
    | [] => []
    | c :: rest =>
      if c.toNat < 0x7f then c :: go rest
      else if Text.isBlank c then ' ' :: go rest
      else match Text.decimalValue? c with
        | some d => Char.ofNat ('0'.toNat + d) :: go rest
        | none => ['?']
  go s.toList

/-- ASCII blanks dropped at both ends. -/
def stripAscii (cs : List Char) : List Char :=
  ((cs.dropWhile Text.isAsciiBlank).reverse.dropWhile Text.isAsciiBlank).reverse

/-- A run of digits grouped by single underscores at the start of a text: its
digits and what follows the run, or `none` when an underscore leads the run,
doubles or ends it. -/
def groupedDigits (cs : List Char) : Option (List Char × List Char) :=
  let isPart (c : Char) : Bool := c.isDigit || c == '_'
  let run := cs.takeWhile isPart
  if run.head? == some '_' || run.getLast? == some '_' || hasDoubleUnderscore run then none
  else some (run.filter (· != '_'), cs.dropWhile isPart)

/-- An integer as the number conversion of text reads it. -/
def readInteger (s : String) : IntReading :=
  let (neg, body) := splitSign ((asciiForm s).dropWhile Text.isAsciiBlank)
  match groupedDigits body with
  | none => .invalid
  | some (ds, rest) =>
    if ds.isEmpty then .invalid
    else if maxIntegerDigits < ds.length then .tooLong ds.length
    else if rest.all Text.isAsciiBlank then .value (signed neg (digitsValue ds))
    else .invalid

/-- A double as the number conversion of text reads it. -/
def readDouble? (s : String) : Option Binary64 :=
  let text := asciiForm s
  if !underscoresWellPlaced text then none
  else
    let core := stripAscii (text.filter (· != '_'))
    if core.isEmpty then none else ofAscii? core

end Decimal

end NodeFlow
