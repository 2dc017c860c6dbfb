import NodeFlow.Decimal.Binary64
/-!
# Shortest decimal digits

For a finite positive double `m · 2 ^ q`, the reals that round to it form an
interval, whose ends belong to it when `m` is even (a tie reads back as the even
significand). `shortest` finds the fewest significant decimal digits whose value
lies in that interval and, of the at most two such values on that grid, the one
nearer to the double; an exact tie takes the even last digit.

Only the two grid points beside the double need a test: if some point of a grid
lies in the interval, the neighbour on the same side lies between it and the
double, so it does too. All comparisons are exact, in natural numbers.
-/

namespace NodeFlow

namespace Decimal

/-- A positive rational `num / den` in lowest terms is not needed: only the
ratio is compared. -/
structure Ratio where
  num : Nat
  den : Nat

namespace Ratio

/-- `c · 10 ^ k · 2 ^ t` for integers `k` and `t`, as a ratio of naturals. -/
def scaled (c : Nat) (k t : Int) : Ratio :=
  ⟨c * Nat.pow 10 k.toNat * Nat.pow 2 t.toNat, Nat.pow 10 (-k).toNat * Nat.pow 2 (-t).toNat⟩

/-- `a ≤ b`. -/
def le (a b : Ratio) : Bool := a.num * b.den ≤ b.num * a.den

/-- `a < b`. -/
def lt (a b : Ratio) : Bool := a.num * b.den < b.num * a.den

/-- The floor of the ratio. -/
def floor (a : Ratio) : Nat := a.num / a.den

end Ratio

/-- Significant digits and a decimal exponent: the value `digits · 10 ^ exp10`. -/
structure Scientific where
  digits : Nat
  exp10 : Int
deriving DecidableEq, Repr

/-- The number of decimal digits of a natural number (one for zero). -/
def digitCount (n : Nat) : Nat := (Nat.toDigits 10 n).length

/-- Drop trailing zero digits, raising the exponent for each. -/
def Scientific.trim (s : Scientific) : Scientific :=
  let rec go (fuel : Nat) (d : Nat) (e : Int) : Scientific :=
    match fuel with
    | 0 => ⟨d, e⟩
    | fuel + 1 => if d ≠ 0 ∧ d % 10 = 0 then go fuel (d / 10) (e + 1) else ⟨d, e⟩
  go (digitCount s.digits) s.digits s.exp10

/-- The largest `E` with `10 ^ E ≤ m · 2 ^ q`, for `m > 0`. The estimate through
`log 2 / log 10 < 0.30103` is at most two below it, and a few steps up reach it. -/
def decimalExponent (m : Nat) (q : Int) : Int :=
  let value : Ratio := Ratio.scaled m 0 q
  let start : Int := ((m.log2 : Int) + q) * 30103 / 100000 - 2
  let rec up (fuel : Nat) (e : Int) : Int :=
    match fuel with
    | 0 => e
    | fuel + 1 => if (Ratio.scaled 1 (e + 1) 0).le value then up fuel (e + 1) else e
  up 6 start

/-- Whether `c · 10 ^ k` rounds to the double `m · 2 ^ q`: it lies strictly
inside the rounding interval, or on its end when `m` is even. `lowerClose`
marks a power of two, whose lower neighbour is half as far. -/
def roundsTo (m : Nat) (q : Int) (lowerClose : Bool) (c : Nat) (k : Int) : Bool :=
  let point := Ratio.scaled c k 2
  let low : Ratio := Ratio.scaled (if lowerClose then 4 * m - 1 else 4 * m - 2) 0 q
  let high : Ratio := Ratio.scaled (4 * m + 2) 0 q
  if m % 2 == 0 then low.le point && point.le high else low.lt point && point.lt high

/-- Of two candidates `lo · 10 ^ k` and `(lo + 1) · 10 ^ k` on each side of the
double, the nearer one; the even one on an exact tie. -/
def nearer (m : Nat) (q : Int) (lo : Nat) (k : Int) : Nat :=
  -- compare (v - lo·10^k) with ((lo+1)·10^k - v), i.e. 2v with (2lo+1)·10^k
  let twice : Ratio := Ratio.scaled (2 * m) 0 q
  let mid : Ratio := Ratio.scaled (2 * lo + 1) k 0
  if twice.lt mid then lo
  else if mid.lt twice then lo + 1
  else if lo % 2 == 0 then lo else lo + 1

/-- The shortest digits for `m · 2 ^ q` (with `m > 0`), trying one to seventeen
significant digits; seventeen always succeed. -/
def shortestOf (m : Nat) (q : Int) (lowerClose : Bool) : Scientific :=
  let e := decimalExponent m q
  let value : Ratio := Ratio.scaled m 0 q
  let rec search (fuel : Nat) (n : Nat) : Scientific :=
    match fuel with
    | 0 => ⟨m, q⟩
    | fuel + 1 =>
      let k : Int := e - n + 1
      let lo := (Ratio.mk (value.num * Nat.pow 10 (-k).toNat) (value.den * Nat.pow 10 k.toNat)).floor
      let okLo := roundsTo m q lowerClose lo k
      let okHi := roundsTo m q lowerClose (lo + 1) k
      if okLo && okHi then (Scientific.mk (nearer m q lo k) k).trim
      else if okLo then (Scientific.mk lo k).trim
      else if okHi then (Scientific.mk (lo + 1) k).trim
      else search fuel (n + 1)
  search 17 1

/-- The shortest decimal that reads back as the given finite nonzero double's
magnitude; zero for a zero. -/
def shortest (x : Binary64) : Scientific :=
  let m := x.significand
  if m = 0 then ⟨0, 0⟩
  else shortestOf m x.exponent (x.fraction == 0 && 1 < x.biasedExponent)

end Decimal

end NodeFlow
