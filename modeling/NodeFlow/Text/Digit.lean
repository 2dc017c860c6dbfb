import NodeFlow.Text.Table
/-!
# Digits

Two properties of the Unicode standard (version 14). A *digit* is a character
with a numeric type of digit or decimal: besides the decimal digits of every
script it holds superscripts and circled digits. A *decimal digit* has a
decimal value and can be part of a written integer: `١٢٣` reads as 123, while
`²` is a digit that no integer reading accepts.
-/

namespace NodeFlow

namespace Text

/-- The characters with a digit or decimal numeric type. -/
def digitSet : RangeSet := RangeSet.ofText (
  "30-39 b2-b3 b9-b9 660-669 6f0-6f9 7c0-7c9 966-96f 9e6-9ef a66-a6f ae6-aef b66-b6f "
  ++ "be6-bef c66-c6f ce6-cef d66-d6f de6-def e50-e59 ed0-ed9 f20-f29 1040-1049 1090-1099 "
  ++ "1369-1371 17e0-17e9 1810-1819 1946-194f 19d0-19da 1a80-1a89 1a90-1a99 1b50-1b59 "
  ++ "1bb0-1bb9 1c40-1c49 1c50-1c59 2070-2070 2074-2079 2080-2089 2460-2468 2474-247c "
  ++ "2488-2490 24ea-24ea 24f5-24fd 24ff-24ff 2776-277e 2780-2788 278a-2792 a620-a629 "
  ++ "a8d0-a8d9 a900-a909 a9d0-a9d9 a9f0-a9f9 aa50-aa59 abf0-abf9 ff10-ff19 104a0-104a9 "
  ++ "10a40-10a43 10d30-10d39 10e60-10e68 11052-1105a 11066-1106f 110f0-110f9 11136-1113f "
  ++ "111d0-111d9 112f0-112f9 11450-11459 114d0-114d9 11650-11659 116c0-116c9 11730-11739 "
  ++ "118e0-118e9 11950-11959 11c50-11c59 11d50-11d59 11da0-11da9 16a60-16a69 16ac0-16ac9 "
  ++ "16b50-16b59 1d7ce-1d7ff 1e140-1e149 1e2f0-1e2f9 1e950-1e959 1f100-1f10a 1fbf0-1fbf9 ")

/-- A run of decimal digits: `first-last-v`, where `first` has value `v` and
values go up by one, after 9 coming back to 0. -/
structure DecimalRun where
  first : Nat
  last : Nat
  value : Nat

/-- The runs of decimal digits, in order. -/
def decimalRuns : Array DecimalRun :=
  ((tableFields (
  "30-39-0 660-669-0 6f0-6f9-0 7c0-7c9-0 966-96f-0 9e6-9ef-0 a66-a6f-0 ae6-aef-0 b66-b6f-0 "
  ++ "be6-bef-0 c66-c6f-0 ce6-cef-0 d66-d6f-0 de6-def-0 e50-e59-0 ed0-ed9-0 f20-f29-0 "
  ++ "1040-1049-0 1090-1099-0 17e0-17e9-0 1810-1819-0 1946-194f-0 19d0-19d9-0 1a80-1a89-0 "
  ++ "1a90-1a99-0 1b50-1b59-0 1bb0-1bb9-0 1c40-1c49-0 1c50-1c59-0 a620-a629-0 a8d0-a8d9-0 "
  ++ "a900-a909-0 a9d0-a9d9-0 a9f0-a9f9-0 aa50-aa59-0 abf0-abf9-0 ff10-ff19-0 104a0-104a9-0 "
  ++ "10d30-10d39-0 11066-1106f-0 110f0-110f9-0 11136-1113f-0 111d0-111d9-0 112f0-112f9-0 "
  ++ "11450-11459-0 114d0-114d9-0 11650-11659-0 116c0-116c9-0 11730-11739-0 118e0-118e9-0 "
  ++ "11950-11959-0 11c50-11c59-0 11d50-11d59-0 11da0-11da9-0 16a60-16a69-0 16ac0-16ac9-0 "
  ++ "16b50-16b59-0 1d7ce-1d7ff-0 1e140-1e149-0 1e2f0-1e2f9-0 1e950-1e959-0 1fbf0-1fbf9-0 ") '-').map fun fs => match fs with
    | [a, b, v] => ⟨hexNat a, hexNat b, (decInt v).toNat⟩
    | _ => ⟨0, 0, 0⟩).toArray

/-- Whether a character has a digit numeric type. -/
def isDigitChar (c : Char) : Bool :=
  if c.toNat < 0x80 then c.isDigit else digitSet.mem c.toNat

/-- The decimal value of a decimal digit. -/
def decimalValue? (c : Char) : Option Nat :=
  let n := c.toNat
  if n < 0x80 then (if c.isDigit then some (n - '0'.toNat) else none)
  else
    match lastAtMost decimalRuns (·.first) n 0 decimalRuns.size none with
    | some i => match decimalRuns[i]? with
      | some r => if n ≤ r.last then some ((r.value + (n - r.first)) % 10) else none
      | none => none
    | none => none

/-- A non-empty text of digit characters only. -/
def isDigitText (s : String) : Bool := !s.isEmpty && s.toList.all isDigitChar

/-- The value of a text of decimal digits, `none` if some character is not one. -/
def decimalDigitsValue? (s : String) : Option Nat :=
  s.toList.foldlM (fun acc c => (decimalValue? c).map fun d => acc * 10 + d) 0

end Text

end NodeFlow
