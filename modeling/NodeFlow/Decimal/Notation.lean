import NodeFlow.Decimal.Shortest
/-!
# Writing a double as text

A `Notation` fixes the decisions of a number format around the shortest digits:
which decimal exponents are written positionally, whether an integral value keeps
a `.0`, how the exponent is marked and padded, and the words for the
non-finite values. `Notation.render` applies them.

With `point` the position of the decimal point after the first significant digit
(the value is `0.d₁d₂… · 10 ^ point`), a value is positional when
`lowPoint < point ≤ highPoint`.
-/

namespace NodeFlow

namespace Decimal

/-- The decisions of a number format. -/
structure Notation where
  /-- Positional when `lowPoint < point`. -/
  lowPoint : Int
  /-- Positional when `point ≤ highPoint`. -/
  highPoint : Int
  /-- An integral positional value ends in `.0`. -/
  pointZero : Bool
  /-- Least number of exponent digits. -/
  expWidth : Nat
  nanText : String
  infText : String

/-- Shortest digits; positional for `1e-4 ≤ |x| < 1e16`, otherwise `d.ddde±XX`
with at least two exponent digits; `.0` kept; `nan` and `inf`. -/
def Notation.shortRepr : Notation := ⟨-4, 16, true, 2, "nan", "inf"⟩

/-- As `shortRepr`, with `NaN` and `Infinity` for the non-finite values, the
spelling of JSON documents that allow them. -/
def Notation.jsonLike : Notation := { Notation.shortRepr with nanText := "NaN", infText := "Infinity" }

/-- `n` zeros. -/
def zeros (n : Nat) : String := String.ofList (List.replicate n '0')

/-- The digits of a positive value placed around the decimal point. -/
def positional (ds : String) (point : Int) (pointZero : Bool) : String :=
  let len : Int := ds.length
  if point ≤ 0 then "0." ++ zeros (-point).toNat ++ ds
  else if point < len then
    String.ofList (ds.toList.take point.toNat) ++ "." ++ String.ofList (ds.toList.drop point.toNat)
  else ds ++ zeros (point - len).toNat ++ (if pointZero then ".0" else "")

/-- `d.ddd` followed by the marked, signed and padded exponent. -/
def exponential (ds : String) (point : Int) (width : Nat) : String :=
  let mant := match ds.toList with
    | [] => "0"
    | [d] => String.singleton d
    | d :: rest => String.singleton d ++ "." ++ String.ofList rest
  let e := point - 1
  let digits := toString e.natAbs
  let padded := zeros (width - digits.length) ++ digits
  mant ++ "e" ++ (if e < 0 then "-" else "+") ++ padded

/-- The text of a double in a notation. -/
def Notation.render (n : Notation) (x : Binary64) : String :=
  let sign := if x.signBit then "-" else ""
  if x.isNaN then n.nanText
  else if x.isInfinite then sign ++ n.infText
  else if x.significand = 0 then sign ++ (if n.pointZero then "0.0" else "0")
  else
    let s := shortest x
    let ds := toString s.digits
    let point := s.exp10 + ds.length
    if n.lowPoint < point ∧ point ≤ n.highPoint then sign ++ positional ds point n.pointZero
    else sign ++ exponential ds point n.expWidth

end Decimal

end NodeFlow
