import NodeFlow.Decimal.Text
/-!
# Lenient readings of text

A validated record takes numbers and flags written as text, by rules of its own
that differ from the number conversions of `Decimal.Text`:

* only White_Space is trimmed, and only for numbers, never for flags; digits
  are ASCII only;
* an integer is a JSON integer, too long past `maxIntegerDigits` digits; or
  else a sign, leading zeros with underscores among them, and a JSON integer
  with single underscores, after an optional fraction of zeros is dropped (see
  `looseInteger?`);
* a double is as a number conversion writes it; failing that, the untrimmed
  text is read again without its underscores, unless one leads, ends or
  doubles;
* a flag is `0`, `1` or a yes/no word in any ASCII case.
-/

namespace NodeFlow

namespace Decimal

/-- An integer in the form a JSON numeral gives it: an optional minus, then
`0` alone or ASCII digits not led by `0`; with the count of its digits. -/
def jsonInteger? (cs : List Char) : Option (Int × Nat) :=
  let (neg, ds) := match cs with
    | '-' :: r => (true, r)
    | r => (false, r)
  match ds with
  | [] => none
  | d :: rest =>
    if !ds.all Char.isDigit || (d == '0' && !rest.isEmpty) then none
    else some (signed neg (digitsValue ds), ds.length)

/-- The text before the first point when one or more zeros, and nothing else,
follow it. -/
def beforeZeroFraction (cs : List Char) : Option (List Char) :=
  match cs.span (· != '.') with
  | (whole, '.' :: frac) => if !frac.isEmpty && frac.all (· == '0') then some whole else none
  | _ => none

/-- A whole number written loosely: a fraction of zeros is dropped, then a
sign; what follows must start with a digit and not end with an underscore.
Leading zeros go with the underscores among them; in what is left no two
underscores may stand together, and the rest, without its underscores and
after the sign, must be a JSON integer of at most `maxIntegerDigits` digits.
A second sign may thus follow the zeros (`0-3` is -3), but not a first minus
(`-0-3` is nothing). Zeros alone are zero. -/
def looseInteger? (cs : List Char) : Option Int := do
  let (neg, body) := splitSign ((beforeZeroFraction cs).getD cs)
  let d ← body.head?
  if !d.isDigit || body.getLast? == some '_' then none
  let rest := body.dropWhile fun c => c == '0' || c == '_'
  if hasDoubleUnderscore rest then none
  let kept := rest.filter (· != '_')
  if kept.isEmpty then return 0
  let (n, digits) ← jsonInteger? ((if neg then ['-'] else []) ++ kept)
  if maxIntegerDigits < digits then none else return n

/-- An integer read leniently from text trimmed of White_Space: a JSON integer
as it stands, too long past `maxIntegerDigits` digits; else a loosely written
one (`looseInteger?`), where a number too long is no number at all. -/
def lenientInt (s : String) : IntReading :=
  let cs := (Text.trimWhiteSpace s).toList
  match jsonInteger? cs with
  | some (n, digits) => if maxIntegerDigits < digits then .tooLong digits else .value n
  | none => match looseInteger? cs with
    | some n => .value n
    | none => .invalid

/-- A double read leniently from text. -/
def lenientDouble? (s : String) : Option Binary64 :=
  match ofAscii? (Text.trimWhiteSpace s).toList with
  | some x => some x
  | none =>
    let cs := s.toList
    if cs.head? == some '_' || cs.getLast? == some '_' || hasDoubleUnderscore cs then none
    else ofAscii? (cs.filter (· != '_'))

/-- A flag read leniently from text: `0` and `1`, or a word for no (`f`, `n`,
`no`, `off`, `false`) or yes (`t`, `y`, `on`, `yes`, `true`) in any ASCII case. -/
def lenientFlag? (s : String) : Option Bool :=
  let w := String.ofList (asciiLower s.toList)
  if s == "0" || ["f", "n", "no", "off", "false"].contains w then some false
  else if s == "1" || ["t", "y", "on", "yes", "true"].contains w then some true
  else none

end Decimal

end NodeFlow
