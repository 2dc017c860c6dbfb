/-!
# Binary64 numbers

A double-precision number is held as its 64 bits, so two numbers are equal exactly
when their bits are, and a statement about a number can be made on its bits.
Arithmetic and comparison go through `Float`, which has the same bits.

`ofRatio` rounds an exact nonnegative ratio to the nearest double, a tie going to
the even significand: it is the one reading function, used for decimal text and
for integers alike.
-/

namespace NodeFlow

/-- An IEEE 754 binary64 value, stored as its bit pattern. -/
structure Binary64 where
  bits : UInt64
deriving DecidableEq, Inhabited, Repr

namespace Binary64

/-- The number as a `Float` with the same bits. -/
def toFloat (x : Binary64) : Float := Float.ofBits x.bits

/-- The bits of a `Float`. -/
def ofFloat (f : Float) : Binary64 := ⟨f.toBits⟩

/-- Positive zero. -/
def zero : Binary64 := ⟨0⟩

/-- The sign bit is set (also for `-0.0` and a negative NaN). -/
def signBit (x : Binary64) : Bool := x.bits >>> 63 == 1

/-- The eleven exponent bits, biased by 1023. -/
def biasedExponent (x : Binary64) : Nat := ((x.bits >>> 52) &&& 0x7FF).toNat

/-- The 52 fraction bits. -/
def fraction (x : Binary64) : Nat := (x.bits &&& 0xFFFFFFFFFFFFF).toNat

/-- All exponent bits set: an infinity or a NaN. -/
def isSpecial (x : Binary64) : Bool := x.biasedExponent == 0x7FF

/-- Not a number. -/
def isNaN (x : Binary64) : Bool := x.isSpecial && x.fraction != 0

/-- Positive or negative infinity. -/
def isInfinite (x : Binary64) : Bool := x.isSpecial && x.fraction == 0

/-- The integer significand `m` of a finite number `± m · 2 ^ q`. -/
def significand (x : Binary64) : Nat :=
  if x.biasedExponent == 0 then x.fraction else x.fraction + Nat.pow 2 52

/-- The binary exponent `q` of a finite number `± m · 2 ^ q`. -/
def exponent (x : Binary64) : Int :=
  if x.biasedExponent == 0 then -1074 else (x.biasedExponent : Int) - 1075

/-- The bits of `± q · 2 ^ e` for a significand `q < 2 ^ 53` that is normalised
(`2 ^ 52 ≤ q`) unless `e = -1074`; too large an exponent gives an infinity. -/
def assemble (negative : Bool) (q : Nat) (e : Int) : Binary64 :=
  let sign : UInt64 := if negative then 0x8000000000000000 else 0
  if 971 < e then ⟨sign ||| 0x7FF0000000000000⟩
  else if q < Nat.pow 2 52 then ⟨sign ||| q.toUInt64⟩
  else
    let biased := (e + 1075).toNat
    ⟨sign ||| (biased.toUInt64 <<< 52) ||| (q - Nat.pow 2 52).toUInt64⟩

/-- `num / (den · 2 ^ e)` when `e ≥ 0`, and `num · 2 ^ -e / den` otherwise, as a
quotient and a remainder over the same divisor. -/
def scaledDiv (num den : Nat) (e : Int) : Nat × Nat × Nat :=
  if 0 ≤ e then
    let d := den * Nat.pow 2 e.toNat
    (num / d, num % d, d)
  else
    let n := num * Nat.pow 2 (-e).toNat
    (n / den, n % den, den)

/-- The double nearest to `num / den`, a tie going to the even significand, with
the given sign. A zero numerator gives a signed zero; a zero denominator is read
as one. -/
def ofRatio (negative : Bool) (num den : Nat) : Binary64 :=
  let den := if den = 0 then 1 else den
  if num = 0 then assemble negative 0 (-1074)
  else
    -- 2 ^ 52 ≤ num / (den · 2 ^ e0) < 2 ^ 54
    let e0 : Int := (num.log2 : Int) - den.log2 - 53
    let e1 := if Nat.pow 2 53 ≤ (scaledDiv num den e0).1 then e0 + 1 else e0
    let e := max e1 (-1074)
    let (q, r, d) := scaledDiv num den e
    let up := d < 2 * r || (2 * r == d && q % 2 == 1)
    let q' := if up then q + 1 else q
    if q' == Nat.pow 2 53 then assemble negative (Nat.pow 2 52) (e + 1) else assemble negative q' e

/-- The double nearest to an integer, or `none` past the largest finite double. -/
def ofInt? (n : Int) : Option Binary64 :=
  let x := ofRatio (n < 0) n.natAbs 1
  if x.isInfinite then none else some x

/-- The double nearest to `x + k`: NaN and the infinities are kept, and a sum
of exactly zero is positive. -/
def addInt (x : Binary64) (k : Int) : Binary64 :=
  if x.isSpecial then x
  else
    let m : Int := if x.signBit then -(x.significand : Int) else x.significand
    let e := x.exponent
    if 0 ≤ e then
      let v := m * (Nat.pow 2 e.toNat : Int) + k
      ofRatio (v < 0) v.natAbs 1
    else
      let scale := Nat.pow 2 (-e).toNat
      let v := m + k * scale
      ofRatio (v < 0) v.natAbs scale

/-- Negation flips the sign bit. -/
def neg (x : Binary64) : Binary64 := ⟨x.bits ^^^ 0x8000000000000000⟩

/-- Ordered below, as floats compare: false when either is a NaN. -/
def lt (x y : Binary64) : Bool := x.toFloat < y.toFloat

/-- Numeric equality, as floats compare: `-0.0` equals `0.0`, a NaN equals nothing. -/
def numEq (x y : Binary64) : Bool := x.toFloat == y.toFloat

/-- The smaller of two values, keeping the first unless the second is below it. -/
def keepMin (x y : Binary64) : Binary64 := if y.lt x then y else x

/-- The larger of two values, keeping the first unless the second is above it. -/
def keepMax (x y : Binary64) : Binary64 := if x.lt y then y else x

/-- A finite value with no fractional part, as an integer. -/
def toInt? (x : Binary64) : Option Int :=
  if x.isSpecial then none
  else
    let m := x.significand
    let q := x.exponent
    let mag : Int := if 0 ≤ q then ((m * Nat.pow 2 q.toNat : Nat) : Int) else
      if m % Nat.pow 2 (-q).toNat == 0 then ((m / Nat.pow 2 (-q).toNat : Nat) : Int) else -1
    if mag < 0 then none else some (if x.signBit then -mag else mag)

/-- A finite value rounded toward zero. -/
def truncate? (x : Binary64) : Option Int :=
  if x.isSpecial then none
  else
    let m := x.significand
    let q := x.exponent
    let mag : Nat := if 0 ≤ q then m * Nat.pow 2 q.toNat else m / Nat.pow 2 (-q).toNat
    some (if x.signBit then -(mag : Int) else mag)

/-- How a double compares with an integer, exactly; `none` for a NaN. A value
strictly between two integers compares as its floor does, except that it is
never equal. -/
def compareInt (x : Binary64) (n : Int) : Option Ordering :=
  if x.isNaN then none
  else if x.isInfinite then some (if x.signBit then .lt else .gt)
  else match x.toInt? with
    | some k => some (compare k n)
    | none =>
      let t := x.truncate?.getD 0
      let floor := if x.signBit then t - 1 else t
      some (if floor < n then .lt else .gt)

end Binary64

end NodeFlow
