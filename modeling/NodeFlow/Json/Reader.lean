import NodeFlow.Json.Value
import NodeFlow.Decimal.Text
import NodeFlow.Text.Surrogate
/-!
# Reading JSON text

`Value.decode` reads one document. Blanks are space, tab, newline and carriage
return; they may surround the value and every token inside it. Numbers follow
`-?(0|[1-9][0-9]*)(\.[0-9]+)?([eE][-+]?[0-9]+)?`: with a fraction or an
exponent they are doubles, otherwise integers. The bare words `NaN`,
`Infinity` and `-Infinity` are doubles too. Strings reject unescaped control
characters. A repeated member name keeps its first place and its last value.

A failure names its fault and the character position where it was found;
`DecodeError.message` adds the line and column. When a value is missing the
position is where it should have started, also inside arrays and objects.
The text read is held text (`Text.hold`), and so is what a `\u` escape gives
(`Text.ofCode`): a lone surrogate half its stand-in character. An integer of more than `Decimal.maxIntegerDigits` digits
is refused: that fault is no syntax error, and its message has no position.
-/

namespace NodeFlow

namespace Json

/-- What went wrong while reading a document. -/
inductive Fault where
  | expectingValue
  | expectingName
  | expectingColon
  | expectingComma
  | extraData
  | unterminatedString
  | controlCharacter
  | invalidEscape
  | invalidUnicodeEscape
  | byteOrderMark
  | tooManyDigits (count : Nat)
deriving DecidableEq, Repr

/-- The words for a fault. -/
def Fault.text : Fault → String
  | .expectingValue => "Expecting value"
  | .expectingName => "Expecting property name enclosed in double quotes"
  | .expectingColon => "Expecting ':' delimiter"
  | .expectingComma => "Expecting ',' delimiter"
  | .extraData => "Extra data"
  | .unterminatedString => "Unterminated string starting at"
  | .controlCharacter => "Invalid control character at"
  | .invalidEscape => "Invalid \\escape"
  | .invalidUnicodeEscape => "Invalid \\uXXXX escape"
  | .byteOrderMark => "Unexpected UTF-8 BOM (decode using utf-8-sig)"
  | .tooManyDigits n => Decimal.digitLimitText n

/-- A fault at a character position of the document. -/
structure DecodeError where
  fault : Fault
  pos : Nat
deriving DecidableEq, Repr

/-- The line (from one) and column (from one) of a code point position. -/
def lineColumn (doc : String) (pos : Nat) : Nat × Nat :=
  let before := (Text.codePoints doc.toList).take pos
  let line := before.count '\n'.toNat + 1
  let col := (before.reverse.takeWhile (· != '\n'.toNat)).length + 1
  (line, col)

/-- Whether a fault is a syntax error of the document. -/
def Fault.isSyntax : Fault → Bool
  | .tooManyDigits _ => false
  | _ => true

/-- The fault's words with the line, column and position: `Expecting value:
line 1 column 1 (char 0)`; a fault that is no syntax error has its words only. -/
def DecodeError.message (e : DecodeError) (doc : String) : String :=
  if e.fault.isSyntax then
    let (line, col) := lineColumn doc e.pos
    e.fault.text ++ ": line " ++ toString line ++ " column " ++ toString col ++
      " (char " ++ toString e.pos ++ ")"
  else e.fault.text

namespace Reader

/-- A blank between tokens. -/
def isBlank (c : Char) : Bool := c == ' ' || c == '\t' || c == '\n' || c == '\r'

/-- Skip blanks, counting positions. -/
def skipBlanks : List Char → Nat → List Char × Nat
  | c :: rest, pos => if isBlank c then skipBlanks rest (pos + 1) else (c :: rest, pos)
  | [], pos => ([], pos)

/-- The value of a hexadecimal digit. -/
def hexValue (c : Char) : Option Nat :=
  if '0' ≤ c ∧ c ≤ '9' then some (c.toNat - '0'.toNat)
  else if 'a' ≤ c ∧ c ≤ 'f' then some (c.toNat - 'a'.toNat + 10)
  else if 'A' ≤ c ∧ c ≤ 'F' then some (c.toNat - 'A'.toNat + 10)
  else none

/-- The value of four hexadecimal digits. -/
def hex4 (a b c d : Char) : Option Nat := do
  let a ← hexValue a
  let b ← hexValue b
  let c ← hexValue c
  let d ← hexValue d
  return ((a * 16 + b) * 16 + c) * 16 + d

/-- Characters read so far, last first, with the characters holding one more
code point (`Text.ofCode`). -/
def push (n : Nat) (acc : List Char) : List Char := (Text.ofCode n).reverse ++ acc

/-- The character a one-letter escape stands for. -/
def simpleEscape : Char → Option Char
  | '"' => some '"'
  | '\\' => some '\\'
  | '/' => some '/'
  | 'b' => some '\x08'
  | 'f' => some '\x0c'
  | 'n' => some '\n'
  | 'r' => some '\r'
  | 't' => some '\t'
  | _ => none

/-- The body of a string after its opening quote at `begin`, up to and past the
closing quote. `acc` holds the characters read so far, last first. -/
def stringBody (begin : Nat) (cs : List Char) (pos : Nat) (acc : List Char) :
    Except DecodeError (String × List Char × Nat) :=
  match cs with
  | [] => .error ⟨.unterminatedString, begin⟩
  | '"' :: rest => .ok (String.ofList acc.reverse, rest, pos + 1)
  | '\\' :: rest =>
    match rest with
    | [] => .error ⟨.unterminatedString, begin⟩
    | 'u' :: a :: b :: c :: d :: after =>
      if after.isEmpty then .error ⟨.invalidUnicodeEscape, pos + 1⟩
      else match hex4 a b c d with
      | none => .error ⟨.invalidUnicodeEscape, pos + 1⟩
      | some hi =>
        if 0xD800 ≤ hi ∧ hi < 0xDC00 then
          match hAfter : after with
          | '\\' :: 'u' :: w :: x :: y :: z :: tl =>
            if tl.isEmpty then stringBody begin after (pos + 6) (push hi acc)
            else match hex4 w x y z with
            | none => .error ⟨.invalidUnicodeEscape, pos + 7⟩
            | some lo =>
              if 0xDC00 ≤ lo ∧ lo < 0xE000 then
                let joined := 0x10000 + (hi - 0xD800) * 0x400 + (lo - 0xDC00)
                stringBody begin tl (pos + 12) (push joined acc)
              else stringBody begin after (pos + 6) (push hi acc)
          | _ => stringBody begin after (pos + 6) (push hi acc)
        else stringBody begin after (pos + 6) (push hi acc)
    | 'u' :: _ => .error ⟨.invalidUnicodeEscape, pos + 1⟩
    | c :: more =>
      match simpleEscape c with
      | some ch => stringBody begin more (pos + 2) (ch :: acc)
      | none => .error ⟨.invalidEscape, pos⟩
  | c :: rest =>
    if c.toNat ≤ 0x1f then .error ⟨.controlCharacter, pos⟩
    else stringBody begin rest (pos + 1) (c :: acc)
termination_by cs.length
decreasing_by all_goals (try subst_vars); all_goals (simp only [List.length_cons]; omega)

/-- A run of ASCII digits and what follows it. -/
def digitRun (cs : List Char) : List Char × List Char :=
  (cs.takeWhile Char.isDigit, cs.dropWhile Char.isDigit)

/-- The optional exponent of a number: `e` or `E`, an optional sign, and at least
one digit; without a digit nothing is taken. -/
def exponentPart : List Char → Option (Int × List Char × Nat)
  | e :: rest =>
    if e == 'e' || e == 'E' then
      let (neg, signLen, afterSign) := match rest with
        | '-' :: r => (true, 1, r)
        | '+' :: r => (false, 1, r)
        | r => (false, 0, r)
      let (ds, more) := digitRun afterSign
      if ds.isEmpty then none
      else
        let n : Int := Decimal.digitsValue ds
        some (if neg then -n else n, more, 1 + signLen + ds.length)
    else none
  | [] => none

/-- The sign of a number: whether it starts with `-`, what follows the sign, and
the sign's length. -/
def signPart : List Char → Bool × List Char × Nat
  | '-' :: r => (true, r, 1)
  | r => (false, r, 0)

/-- The integer digits of a number and what follows them: `0` alone, or a
nonzero digit and the digits after it. -/
def integerPart : List Char → Option (List Char × List Char)
  | '0' :: r => some (['0'], r)
  | c :: r => if '1' ≤ c ∧ c ≤ '9' then
      let (ds, more) := digitRun r
      some (c :: ds, more)
    else none
  | [] => none

/-- The optional fraction digits of a number after `.`, at least one, and what
follows them; without a digit after the point nothing is taken. -/
def fractionPart (cs : List Char) : Option (List Char) × List Char :=
  match cs with
  | '.' :: d :: r => if d.isDigit then
      let (ds, more) := digitRun r
      (some (d :: ds), more)
    else (none, cs)
  | _ => (none, cs)

/-- A number starting at `pos`, or `none` when none starts there; an integer
with too many digits is a fault. -/
def number (cs : List Char) (pos : Nat) : Option (Except DecodeError (Value × List Char × Nat)) :=
  let (neg, afterSign, signLen) := signPart cs
  match integerPart afterSign with
  | none => none
  | some (whole, rest) =>
    let (frac, rest) := fractionPart rest
    let (expo, rest, expLen) := match exponentPart rest with
      | some (k, more, len) => (some k, more, len)
      | none => (none, rest, 0)
    let fracDigits := frac.getD []
    let len := signLen + whole.length + (if frac.isSome then fracDigits.length + 1 else 0) + expLen
    let end_ := pos + len
    if frac.isNone ∧ expo.isNone then
      if Decimal.maxIntegerDigits < whole.length then some (.error ⟨.tooManyDigits whole.length, pos⟩)
      else
        let n : Int := Decimal.digitsValue whole
        some (.ok (.int (if neg then -n else n), rest, end_))
    else
      let c := Decimal.digitsValue (whole ++ fracDigits)
      let k := expo.getD 0 - fracDigits.length
      some (.ok (.float (Decimal.ofScientific neg c k), rest, end_))

/-- Positive infinity. -/
def infinity : Binary64 := ⟨0x7FF0000000000000⟩

/-- The quiet NaN. -/
def notANumber : Binary64 := ⟨0x7FF8000000000000⟩

mutual

/-- One value at `pos`. Fuel bounds the depth of the calls; every call reads at
least one character, so the length of the text is enough. -/
def value : Nat → List Char → Nat → Except DecodeError (Value × List Char × Nat)
  | 0, _, pos => .error ⟨.expectingValue, pos⟩
  | fuel + 1, cs, pos =>
    match cs with
    | '"' :: rest => (stringBody pos rest (pos + 1) []).map fun (s, r, p) => (.str s, r, p)
    | '{' :: rest =>
      let (rest, p) := skipBlanks rest (pos + 1)
      match rest with
      | '}' :: r => .ok (.obj [], r, p + 1)
      | _ => members fuel [] rest p
    | '[' :: rest =>
      let (rest, p) := skipBlanks rest (pos + 1)
      match rest with
      | ']' :: r => .ok (.arr [], r, p + 1)
      | _ => items fuel [] rest p
    | 'n' :: 'u' :: 'l' :: 'l' :: r => .ok (.null, r, pos + 4)
    | 't' :: 'r' :: 'u' :: 'e' :: r => .ok (.bool true, r, pos + 4)
    | 'f' :: 'a' :: 'l' :: 's' :: 'e' :: r => .ok (.bool false, r, pos + 5)
    | 'N' :: 'a' :: 'N' :: r => .ok (.float notANumber, r, pos + 3)
    | 'I' :: 'n' :: 'f' :: 'i' :: 'n' :: 'i' :: 't' :: 'y' :: r => .ok (.float infinity, r, pos + 8)
    | '-' :: 'I' :: 'n' :: 'f' :: 'i' :: 'n' :: 'i' :: 't' :: 'y' :: r =>
      .ok (.float infinity.neg, r, pos + 9)
    | _ =>
      match number cs pos with
      | some res => res
      | none => .error ⟨.expectingValue, pos⟩

/-- The items of an array after `[`, the first one starting at `pos`. -/
def items : Nat → List Value → List Char → Nat → Except DecodeError (Value × List Char × Nat)
  | 0, _, _, pos => .error ⟨.expectingValue, pos⟩
  | fuel + 1, acc, cs, pos => do
    let (v, rest, p) ← value fuel cs pos
    let (rest, p) := skipBlanks rest p
    match rest with
    | ']' :: r => .ok (.arr (v :: acc).reverse, r, p + 1)
    | ',' :: r =>
      let (r, p) := skipBlanks r (p + 1)
      items fuel (v :: acc) r p
    | _ => .error ⟨.expectingComma, p⟩

/-- The members of an object after `{`, the first name expected at `pos`. -/
def members : Nat → List (String × Value) → List Char → Nat →
    Except DecodeError (Value × List Char × Nat)
  | 0, _, _, pos => .error ⟨.expectingValue, pos⟩
  | fuel + 1, acc, cs, pos =>
    match cs with
    | '"' :: rest => do
      let (key, rest, p) ← stringBody pos rest (pos + 1) []
      let (rest, p) := skipBlanks rest p
      match rest with
      | ':' :: rest =>
        let (rest, p) := skipBlanks rest (p + 1)
        let (v, rest, p) ← value fuel rest p
        let (rest, p) := skipBlanks rest p
        match rest with
        | '}' :: r => .ok (.obj (Fields.ofPairs ((key, v) :: acc).reverse), r, p + 1)
        | ',' :: r =>
          let (r, p) := skipBlanks r (p + 1)
          members fuel ((key, v) :: acc) r p
        | _ => .error ⟨.expectingComma, p⟩
      | _ => .error ⟨.expectingColon, p⟩
    | _ => .error ⟨.expectingName, pos⟩

end

end Reader

/-- Read a whole document: one value, with only blanks around it. A leading
byte order mark is refused. A failure's position counts code points, a held
character being one (`Text.codePoints`). -/
def Value.decode (doc : String) : Except DecodeError Value :=
  let cs := doc.toList
  match cs with
  | '﻿' :: _ => .error ⟨.byteOrderMark, 0⟩
  | _ =>
    let (rest, p) := Reader.skipBlanks cs 0
    let atCode (e : DecodeError) : DecodeError :=
      { e with pos := (Text.codePoints (cs.take e.pos)).length }
    match Reader.value (2 * cs.length + 4) rest p with
    | .error e => .error (atCode e)
    | .ok (v, rest, p) =>
      let (rest, p) := Reader.skipBlanks rest p
      if rest.isEmpty then .ok v else .error (atCode ⟨.extraData, p⟩)

end Json

end NodeFlow
