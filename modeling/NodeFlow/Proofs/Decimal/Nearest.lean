import Mathlib.Data.Nat.Bitwise
import Mathlib.Data.Rat.Cast.Order
import Mathlib.Algebra.Order.Field.Power
import Mathlib.Tactic.FieldSimp
import Mathlib.Tactic.Linarith
import Mathlib.Tactic.Positivity
import Mathlib.Tactic.GCongr
import Mathlib.Tactic.Ring
import NodeFlow.Decimal.Binary64
import NodeFlow.Decimal.Shortest

/-!
# Reading a ratio gives the nearest double

`Binary64.ofRatio` rounds an exact ratio to a double. Its main statement here,
`ofRatio_of_roundsTo`, says that it gives back a finite nonzero double `x`
from any ratio in `x`'s rounding interval (`Decimal.RoundsTo`): within half a
unit of the significand, a quarter below a power of two past the smallest
exponent, the ends included for an even significand.

The proof reads `ofRatio` as exact rational arithmetic. It first picks the
binade, the exponent at which the quotient lies in `[2 ^ 52, 2 ^ 53)`
(`ratioExponent_spec`). It then rounds the quotient at that exponent, or at
the smallest one, to the nearest integer, a tie to the even one
(`roundedQuotient_eq`). Just below a power of two the quotient falls into the
binade below and is rounded up to `2 ^ 53`, which is assembled as the power
of two. The bits of a double are its sign, biased exponent and fraction side
by side (`bits_toNat_eq`), so `assemble` rebuilds every finite double from
its parts (`assemble_parts`).
-/

namespace NodeFlow

namespace Decimal

/-- `v` rounds to the double `m · 2 ^ q`: it lies within half a unit of `m`
(a quarter below, when `lowerClose`), the ends included when `m` is even. -/
def RoundsTo (m : Nat) (q : Int) (lowerClose : Bool) (v : ℚ) : Prop :=
  let low : ℚ := ((m : ℚ) - if lowerClose then 1 / 4 else 1 / 2) * 2 ^ q
  let high : ℚ := ((m : ℚ) + 1 / 2) * 2 ^ q
  if m % 2 = 0 then low ≤ v ∧ v ≤ high else low < v ∧ v < high

/-- The interval read uniformly: within a half of `m`, exactly a half away
only for an even `m`, and at most a quarter below when `lowerClose`. -/
theorem RoundsTo.bounds {m : Nat} {q : Int} {lowerClose : Bool} {v : ℚ} (h : RoundsTo m q lowerClose v) :
    ((m : ℚ) - 1 / 2) * 2 ^ q ≤ v ∧ v ≤ ((m : ℚ) + 1 / 2) * 2 ^ q ∧
      ((((m : ℚ) - 1 / 2) * 2 ^ q = v ∨ v = ((m : ℚ) + 1 / 2) * 2 ^ q) → m % 2 = 0) ∧
      (lowerClose = true → ((m : ℚ) - 1 / 4) * 2 ^ q ≤ v) := by
  simp only [RoundsTo] at h
  -- the ends as written, included or not by the parity of `m`
  have hends : ((m : ℚ) - if lowerClose then 1 / 4 else 1 / 2) * 2 ^ q ≤ v ∧ v ≤ ((m : ℚ) + 1 / 2) * 2 ^ q ∧
      ((((m : ℚ) - if lowerClose then 1 / 4 else 1 / 2) * 2 ^ q = v ∨ v = ((m : ℚ) + 1 / 2) * 2 ^ q) →
        m % 2 = 0) := by
    split at h
    · exact ⟨h.1, h.2, fun _ => by assumption⟩
    · exact ⟨h.1.le, h.2.le, fun h' => h'.elim (fun h' => absurd h' h.1.ne) (fun h' => absurd h' h.2.ne)⟩
  obtain ⟨hlow, hhigh, htie⟩ := hends
  have hq0 : (0 : ℚ) < 2 ^ q := zpow_pos (by norm_num) q
  cases lowerClose with
  | false => exact ⟨by simpa using hlow, hhigh, by simpa using htie, nofun⟩
  | true =>
    simp only [if_true] at hlow htie
    -- a quarter below is strictly inside a half below
    have hlt : ((m : ℚ) - 1 / 2) * 2 ^ q < ((m : ℚ) - 1 / 4) * 2 ^ q := by gcongr; norm_num
    exact ⟨le_trans hlt.le hlow, hhigh,
      fun h => htie (h.imp (fun h => absurd h (ne_of_lt (lt_of_lt_of_le hlt hlow))) id), fun _ => hlow⟩

end Decimal

namespace Binary64

open Decimal

theorem signBit_eq (x : Binary64) : x.signBit = decide (x.bits.toNat / 2 ^ 63 = 1) := by
  unfold signBit
  rw [beq_eq_decide]
  exact decide_eq_decide.2 (by rw [← UInt64.toNat_inj, UInt64.toNat_shiftRight, Nat.shiftRight_eq_div_pow]; rfl)

theorem biasedExponent_eq (x : Binary64) : x.biasedExponent = x.bits.toNat / 2 ^ 52 % 2048 := by
  unfold biasedExponent
  rw [UInt64.toNat_and, UInt64.toNat_shiftRight, show (0x7FF : UInt64).toNat = 2 ^ 11 - 1 from rfl,
    Nat.and_two_pow_sub_one_eq_mod, Nat.shiftRight_eq_div_pow]
  rfl

theorem fraction_eq (x : Binary64) : x.fraction = x.bits.toNat % 2 ^ 52 := by
  unfold fraction
  rw [UInt64.toNat_and, show (0xFFFFFFFFFFFFF : UInt64).toNat = 2 ^ 52 - 1 from rfl,
    Nat.and_two_pow_sub_one_eq_mod]

/-- The sign word of `assemble`. -/
theorem toNat_signWord (s : Bool) :
    (if s then (0x8000000000000000 : UInt64) else 0).toNat = 2 ^ 63 * s.toNat := by
  cases s <;> rfl

/-- The bits of a double are its sign, its biased exponent and its fraction,
side by side. -/
theorem bits_toNat_eq (x : Binary64) :
    x.bits.toNat = 2 ^ 63 * x.signBit.toNat + 2 ^ 52 * x.biasedExponent + x.fraction := by
  have hlt := x.bits.toNat_lt
  rw [signBit_eq, biasedExponent_eq, fraction_eq]
  by_cases h : x.bits.toNat / 2 ^ 63 = 1
  · simp only [h, decide_true, Bool.toNat_true]
    omega
  · simp only [h, decide_false, Bool.toNat_false]
    omega

theorem eq_of_bits_toNat {x y : Binary64} (h : x.bits.toNat = y.bits.toNat) : x = y := by
  cases x; cases y
  congr
  exact UInt64.toNat_inj.1 h

theorem biasedExponent_lt (x : Binary64) : x.biasedExponent < 2048 := by
  rw [biasedExponent_eq]; omega

theorem fraction_lt (x : Binary64) : x.fraction < 2 ^ 52 := by
  rw [fraction_eq]; omega

/-- **A finite double is assembled from its sign, significand and exponent.** -/
theorem assemble_parts {x : Binary64} (hx : x.isSpecial = false) :
    assemble x.signBit x.significand x.exponent = x := by
  have hE := x.biasedExponent_lt
  have hF := x.fraction_lt
  have hs : x.signBit.toNat ≤ 1 := by cases x.signBit <;> decide
  have hne : x.biasedExponent ≠ 2047 := by
    unfold isSpecial at hx; simpa using hx
  apply eq_of_bits_toNat
  rw [bits_toNat_eq x]
  unfold assemble significand exponent
  simp only [Nat.pow_eq]
  by_cases h0 : x.biasedExponent = 0
  · simp only [h0, beq_self_eq_true, if_true]
    rw [if_neg (by decide), if_pos hF, UInt64.toNat_or, toNat_signWord, UInt64.toNat_ofNat',
      Nat.mod_eq_of_lt (by omega), ← Nat.two_pow_add_eq_or_of_lt (by omega : x.fraction < 2 ^ 63)]
    omega
  · simp only [show (x.biasedExponent == 0) = false from by simpa using h0, Bool.false_eq_true, if_false]
    rw [if_neg (by omega), if_neg (by omega)]
    have hb : ((x.biasedExponent : Int) - 1075 + 1075).toNat = x.biasedExponent := by omega
    rw [hb, UInt64.toNat_or, UInt64.toNat_or, toNat_signWord, UInt64.toNat_shiftLeft, UInt64.toNat_ofNat',
      UInt64.toNat_ofNat', Nat.mod_eq_of_lt (by omega : x.biasedExponent < 2 ^ 64),
      Nat.mod_eq_of_lt (by omega : x.fraction + 2 ^ 52 - 2 ^ 52 < 2 ^ 64), Nat.add_sub_cancel,
      show (52 : UInt64).toNat % 64 = 52 from rfl, Nat.shiftLeft_eq,
      Nat.mod_eq_of_lt (by omega : x.biasedExponent * 2 ^ 52 < 2 ^ 64),
      Nat.mul_comm x.biasedExponent,
      ← Nat.two_pow_add_eq_or_of_lt (by omega : 2 ^ 52 * x.biasedExponent < 2 ^ 63),
      show 2 ^ 63 * x.signBit.toNat + 2 ^ 52 * x.biasedExponent =
        2 ^ 52 * (2 ^ 11 * x.signBit.toNat + x.biasedExponent) by ring,
      ← Nat.two_pow_add_eq_or_of_lt hF]

/-- The exponent at which `ofRatio` rounds `num / den`, before subnormals are
floored: the one that puts the quotient in `[2 ^ 52, 2 ^ 53)`. -/
def ratioExponent (num den : Nat) : Int :=
  let e0 : Int := (num.log2 : Int) - den.log2 - 53
  if Nat.pow 2 53 ≤ (scaledDiv num den e0).1 then e0 + 1 else e0

/-- `num / (den · 2 ^ e)` rounded to an integer, a tie going to the even one. -/
def roundedQuotient (num den : Nat) (e : Int) : Nat :=
  let (q, r, d) := scaledDiv num den e
  if d < 2 * r || (2 * r == d && q % 2 == 1) then q + 1 else q

theorem ofRatio_eq {neg : Bool} {num den : Nat} (hnum : num ≠ 0) (hden : den ≠ 0) :
    ofRatio neg num den =
      if roundedQuotient num den (max (ratioExponent num den) (-1074)) = 2 ^ 53 then
        assemble neg (2 ^ 52) (max (ratioExponent num den) (-1074) + 1)
      else assemble neg (roundedQuotient num den (max (ratioExponent num den) (-1074)))
        (max (ratioExponent num den) (-1074)) := by
  unfold ofRatio ratioExponent roundedQuotient
  simp only [hden, hnum, if_false, Nat.pow_eq, beq_iff_eq]

/-- `scaledDiv` divides `num / den` by `2 ^ e`: a quotient and a remainder
below a positive divisor. -/
theorem scaledDiv_spec (num : Nat) {den : Nat} (hden : den ≠ 0) (e : Int) :
    0 < (scaledDiv num den e).2.2 ∧ (scaledDiv num den e).2.1 < (scaledDiv num den e).2.2 ∧
      ((scaledDiv num den e).1 : ℚ) + ((scaledDiv num den e).2.1 : ℚ) / (scaledDiv num den e).2.2 =
        (num : ℚ) / den / 2 ^ e := by
  have hden' : (0 : ℚ) < den := by exact_mod_cast Nat.pos_of_ne_zero hden
  -- the quotient and the remainder of `n / d` make up `n / d`
  have split : ∀ n d : Nat, 0 < d → ((n / d : Nat) : ℚ) + ((n % d : Nat) : ℚ) / d = (n : ℚ) / d := by
    intro n d hd
    have hd' : (d : ℚ) ≠ 0 := by exact_mod_cast hd.ne'
    rw [eq_div_iff hd', add_mul, div_mul_cancel₀ _ hd']
    exact_mod_cast Nat.div_add_mod' n d
  unfold scaledDiv
  split
  · rename_i he
    have hd : 0 < den * Nat.pow 2 e.toNat := Nat.mul_pos (Nat.pos_of_ne_zero hden) (by rw [Nat.pow_eq]; positivity)
    refine ⟨hd, Nat.mod_lt _ hd, ?_⟩
    rw [split _ _ hd]
    have : (2 : ℚ) ^ e = ((2 ^ e.toNat : Nat) : ℚ) := by
      rw [Nat.cast_pow, ← zpow_natCast, Int.toNat_of_nonneg he]; rfl
    rw [this, Nat.pow_eq, Nat.cast_mul, div_div]
  · rename_i he
    have hd := Nat.pos_of_ne_zero hden
    refine ⟨hd, Nat.mod_lt _ hd, ?_⟩
    rw [split _ _ hd]
    have : (2 : ℚ) ^ e = 1 / ((2 ^ (-e).toNat : Nat) : ℚ) := by
      rw [Nat.cast_pow, ← zpow_natCast, Int.toNat_of_nonneg (by omega), zpow_neg, one_div, inv_inv]; rfl
    rw [this, Nat.pow_eq, Nat.cast_mul]
    field_simp

/-- **Rounding a quotient to the nearest integer, a tie to the even one**: a
quotient within a half of `m`, and exactly a half away only when `m` is even,
rounds to `m`. -/
theorem roundedQuotient_eq {num den : Nat} (hden : den ≠ 0) {e : Int} {m : Nat}
    (hlow : (m : ℚ) - 1 / 2 ≤ num / den / 2 ^ e) (hhigh : (num : ℚ) / den / 2 ^ e ≤ m + 1 / 2)
    (htie : (m : ℚ) - 1 / 2 = num / den / 2 ^ e ∨ (num : ℚ) / den / 2 ^ e = m + 1 / 2 → m % 2 = 0) :
    roundedQuotient num den e = m := by
  obtain ⟨hd, hr, hsum⟩ := scaledDiv_spec num hden e
  unfold roundedQuotient
  generalize scaledDiv num den e = t at hd hr hsum ⊢
  obtain ⟨Q, R, D⟩ := t
  simp only at hd hr hsum ⊢
  rw [← hsum] at hlow hhigh htie
  have hD : (0 : ℚ) < D := by exact_mod_cast hd
  have hf0 : 0 ≤ (R : ℚ) / D := by positivity
  have hf1 : (R : ℚ) / D < 1 := by rw [div_lt_one hD]; exact_mod_cast hr
  -- the remainder against half the divisor
  have hover : D < 2 * R ↔ (1 : ℚ) / 2 < R / D := by
    rw [lt_div_iff₀ hD, ← Nat.cast_lt (α := ℚ), Nat.cast_mul, Nat.cast_ofNat]
    constructor <;> intro h <;> linarith
  have hhalf : 2 * R = D ↔ (R : ℚ) / D = 1 / 2 := by
    rw [div_eq_iff hD.ne', ← Nat.cast_inj (R := ℚ), Nat.cast_mul, Nat.cast_ofNat]
    constructor <;> intro h <;> linarith
  -- the quotient is `m` or one below it
  have hQ : Q ≤ m := by
    have : (Q : ℚ) < m + 1 := by linarith
    exact Nat.lt_succ_iff.1 (by exact_mod_cast this)
  have hm : m ≤ Q + 1 := by
    have : (m : ℚ) < Q + 2 := by linarith
    have : m < Q + 2 := by exact_mod_cast this
    omega
  rcases Nat.eq_or_lt_of_le hQ with rfl | hlt
  · -- at most a half above `Q`: kept, also on a tie, where `Q` is even
    have hup : ¬(D < 2 * R) := fun h => by linarith [hover.1 h]
    have htie' : ¬(2 * R = D ∧ Q % 2 = 1) := by
      rintro ⟨h, hodd⟩
      have := htie (.inr (by linarith [hhalf.1 h]))
      omega
    simp only [decide_eq_true_eq, Bool.or_eq_true, Bool.and_eq_true, beq_iff_eq] at *
    rw [if_neg (by tauto)]
  · -- at least a half above `Q = m - 1`: raised, on a tie since `Q` is odd
    obtain rfl : m = Q + 1 := by omega
    by_cases hup : D < 2 * R
    · simp only [hup, decide_true, Bool.true_or, if_true]
    · have hle : (R : ℚ) / D ≤ 1 / 2 := not_lt.1 (fun h => hup (hover.2 h))
      have heq : (R : ℚ) / D = 1 / 2 := by push_cast at hlow; linarith
      have heven := htie (.inl (by push_cast; linarith))
      have h2 := hhalf.2 heq
      simp only [h2, beq_self_eq_true, show Q % 2 = 1 by omega, Bool.true_and, Bool.or_true, if_true]

theorem two_zpow_pos (e : Int) : (0 : ℚ) < 2 ^ e := zpow_pos (by norm_num) e

/-- A positive number lies between two to the power of its logarithm and
twice that. -/
theorem log2_bounds {n : Nat} (hn : n ≠ 0) : (2 : ℚ) ^ n.log2 ≤ n ∧ (n : ℚ) < 2 * 2 ^ n.log2 := by
  constructor
  · exact_mod_cast Nat.log2_self_le hn
  · have := Nat.lt_log2_self (n := n)
    rw [pow_succ, mul_comm] at this
    exact_mod_cast this

/-- At the first estimate of `ratioExponent`, the difference of the
logarithms less 53, the quotient lies strictly between `2 ^ 52` and `2 ^ 54`:
each logarithm is off by less than one. -/
theorem first_estimate_bounds {num den : Nat} (hnum : num ≠ 0) (hden : den ≠ 0) :
    2 ^ 52 < (num : ℚ) / den / 2 ^ ((num.log2 : Int) - den.log2 - 53) ∧
      (num : ℚ) / den / 2 ^ ((num.log2 : Int) - den.log2 - 53) < 2 ^ 54 := by
  have ha := log2_bounds hnum
  have hb := log2_bounds hden
  have hscale : (num : ℚ) / den / 2 ^ ((num.log2 : Int) - den.log2 - 53) =
      num * 2 ^ den.log2 * 2 ^ 53 / (den * 2 ^ num.log2) := by
    rw [show ((num.log2 : Int) - den.log2 - 53) = ((num.log2 : Nat) : Int) - ((den.log2 : Nat) : Int) -
      ((53 : Nat) : Int) from rfl, zpow_sub₀ (by norm_num), zpow_sub₀ (by norm_num), zpow_natCast,
      zpow_natCast, zpow_natCast]
    field_simp
  have hA : (0 : ℚ) < 2 ^ num.log2 := by positivity
  have hden' : (0 : ℚ) < den := by exact_mod_cast Nat.pos_of_ne_zero hden
  rw [hscale]
  generalize (2 : ℚ) ^ num.log2 = A at ha hA
  generalize (2 : ℚ) ^ den.log2 = B at hb
  constructor
  · rw [lt_div_iff₀ (by positivity)]
    nlinarith
  · rw [div_lt_iff₀ (by positivity)]
    nlinarith

/-- **`ofRatio` finds the binade**: at `ratioExponent` the quotient lies in
`[2 ^ 52, 2 ^ 53)`. -/
theorem ratioExponent_spec {num den : Nat} (hnum : num ≠ 0) (hden : den ≠ 0) :
    2 ^ 52 * (2 : ℚ) ^ ratioExponent num den ≤ num / den ∧
      (num : ℚ) / den < 2 ^ 53 * 2 ^ ratioExponent num den := by
  obtain ⟨hlow, hhigh⟩ := first_estimate_bounds hnum hden
  unfold ratioExponent
  simp only [Nat.pow_eq]
  generalize ((num.log2 : Int) - den.log2 - 53) = e0 at hlow hhigh ⊢
  obtain ⟨-, hr, hsum⟩ := scaledDiv_spec num hden e0
  have hf0 : (0 : ℚ) ≤ (scaledDiv num den e0).2.1 / (scaledDiv num den e0).2.2 := by positivity
  have hf1 : ((scaledDiv num den e0).2.1 : ℚ) / (scaledDiv num den e0).2.2 < 1 := by
    rw [div_lt_one (by exact_mod_cast Nat.lt_of_le_of_lt (Nat.zero_le _) hr)]
    exact_mod_cast hr
  have he0 := two_zpow_pos e0
  split
  · -- the floor reached 2 ^ 53: one binade up
    rename_i hQ
    have hQ' : (2 : ℚ) ^ 53 ≤ (scaledDiv num den e0).1 := by exact_mod_cast hQ
    have hv : (num : ℚ) / den = num / den / 2 ^ e0 * 2 ^ e0 := (div_mul_cancel₀ _ he0.ne').symm
    rw [zpow_add_one₀ (by norm_num), hv]
    constructor
    · calc (2 : ℚ) ^ 52 * (2 ^ e0 * 2) = (2 : ℚ) ^ 53 * 2 ^ e0 := by ring
        _ ≤ (num : ℚ) / den / 2 ^ e0 * 2 ^ e0 := by gcongr; linarith
    · calc (num : ℚ) / den / 2 ^ e0 * 2 ^ e0 < (2 : ℚ) ^ 54 * 2 ^ e0 := by gcongr
        _ = (2 : ℚ) ^ 53 * (2 ^ e0 * 2) := by ring
  · rename_i hQ
    have hQ' : ((scaledDiv num den e0).1 : ℚ) + 1 ≤ 2 ^ 53 := by
      have : (scaledDiv num den e0).1 + 1 ≤ 2 ^ 53 := by omega
      exact_mod_cast this
    constructor
    · rw [← le_div_iff₀ he0]; linarith
    · rw [← div_lt_iff₀ he0]; linarith

theorem significand_lt (x : Binary64) : x.significand < 2 ^ 53 := by
  have := x.fraction_lt
  unfold significand
  simp only [Nat.pow_eq]
  split <;> omega

theorem exponent_ge (x : Binary64) : -1074 ≤ x.exponent := by
  unfold exponent
  split
  · exact le_refl _
  · rename_i h
    simp only [beq_iff_eq] at h
    omega

theorem exponent_le {x : Binary64} (hx : x.isSpecial = false) : x.exponent ≤ 971 := by
  have hE := x.biasedExponent_lt
  have hne : x.biasedExponent ≠ 2047 := by unfold isSpecial at hx; simpa using hx
  unfold exponent
  split
  · omega
  · rename_i h
    simp only [beq_iff_eq] at h
    omega

/-- Past the smallest exponent the significand is normal. -/
theorem significand_ge {x : Binary64} (hq : -1074 < x.exponent) : 2 ^ 52 ≤ x.significand := by
  unfold exponent at hq
  unfold significand
  split at hq
  · omega
  · rename_i h
    simp only [h, Bool.false_eq_true, if_false, Nat.pow_eq]
    omega

/-- The lower neighbour is half as far exactly at a power of two past the
smallest exponent. -/
theorem lowerClose_iff (x : Binary64) :
    (x.fraction == 0 && 1 < x.biasedExponent) = true ↔ x.significand = 2 ^ 52 ∧ -1074 < x.exponent := by
  have hF := x.fraction_lt
  unfold significand exponent
  by_cases h0 : x.biasedExponent = 0
  · simp [h0]
  · simp only [show (x.biasedExponent == 0) = false from by simpa using h0, Bool.false_eq_true, if_false,
      Nat.pow_eq, Bool.and_eq_true, beq_iff_eq, decide_eq_true_eq]
    omega

theorem two_zpow_lt_iff {a b : Int} : (2 : ℚ) ^ a < 2 ^ b ↔ a < b :=
  zpow_lt_zpow_iff_right₀ (by norm_num)

/-- A value at least `c · 2 ^ a` and below `c · 2 ^ b` has `a < b`. -/
theorem exponent_lt_of_scaled {a b : Int} {c v : ℚ} (hc : 0 < c) (h1 : c * 2 ^ a ≤ v) (h2 : v < c * 2 ^ b) :
    a < b :=
  two_zpow_lt_iff.1 (lt_of_mul_lt_mul_left (lt_of_le_of_lt h1 h2) hc.le)

/-- At the exponent of the interval the quotient rounds to its significand. -/
theorem roundedQuotient_of_roundsTo {m : Nat} {q : Int} {lowerClose : Bool} {num den : Nat} (hden : den ≠ 0)
    (hv : RoundsTo m q lowerClose (num / den)) : roundedQuotient num den q = m := by
  obtain ⟨hlow, hhigh, htie, -⟩ := hv.bounds
  have hq0 := two_zpow_pos q
  apply roundedQuotient_eq hden
  · rw [le_div_iff₀ hq0]; exact hlow
  · rw [div_le_iff₀ hq0]; exact hhigh
  · intro h
    refine htie (h.imp (fun h => ?_) (fun h => ?_))
    · rwa [eq_div_iff hq0.ne'] at h
    · rwa [div_eq_iff hq0.ne'] at h

/-- A quotient at most a quarter unit below `2 ^ 52 · 2 ^ q` rounds up to
`2 ^ 53` at the exponent below. -/
theorem roundedQuotient_below_power {q : Int} {num den : Nat} (hden : den ≠ 0)
    (hlow : ((2 : ℚ) ^ 52 - 1 / 4) * 2 ^ q ≤ num / den) (hhigh : (num : ℚ) / den < 2 ^ 52 * 2 ^ q) :
    roundedQuotient num den (q - 1) = 2 ^ 53 := by
  have hq1 : (2 : ℚ) ^ (q - 1) = 2 ^ q / 2 := zpow_sub_one₀ (by norm_num) q
  have hq1' := two_zpow_pos (q - 1)
  apply roundedQuotient_eq hden
  · rw [le_div_iff₀ hq1', hq1]; push_cast; linarith
  · rw [div_le_iff₀ hq1', hq1]; push_cast; linarith
  · intro _; norm_num

/-- **Reading a ratio gives the double whose rounding interval holds it.** -/
theorem ofRatio_of_roundsTo {x : Binary64} (hx : x.isSpecial = false) (hm : x.significand ≠ 0)
    {num den : Nat} (hden : den ≠ 0)
    (hv : RoundsTo x.significand x.exponent (x.fraction == 0 && 1 < x.biasedExponent) (num / den)) :
    ofRatio x.signBit num den = x := by
  obtain ⟨hhalf, hhigh, -, hquarter⟩ := hv.bounds
  have hm1 : (1 : ℚ) ≤ x.significand := by exact_mod_cast Nat.pos_of_ne_zero hm
  have hq0 := two_zpow_pos x.exponent
  have hnum : num ≠ 0 := by
    rintro rfl
    have : (0 : ℚ) < ((x.significand : ℚ) - 1 / 2) * 2 ^ x.exponent := mul_pos (by linarith) hq0
    simp only [Nat.cast_zero, zero_div] at hhalf
    linarith
  obtain ⟨hE1, hE2⟩ := ratioExponent_spec hnum hden
  rw [ofRatio_eq hnum hden]
  -- at the exponent of `x` the quotient rounds to its significand, which assembles `x`
  have hat : (if roundedQuotient num den x.exponent = 2 ^ 53 then assemble x.signBit (2 ^ 52) (x.exponent + 1)
      else assemble x.signBit (roundedQuotient num den x.exponent) x.exponent) = x := by
    rw [roundedQuotient_of_roundsTo hden hv, if_neg (by have := x.significand_lt; omega), assemble_parts hx]
  have h52 : (0 : ℚ) < 2 ^ 52 := by norm_num
  by_cases hbig : 2 ^ 52 * 2 ^ x.exponent ≤ (num : ℚ) / den
  · -- the ratio lies in the binade of `x`: it is read at `x`'s exponent
    have h53 : (x.significand : ℚ) + 1 / 2 < 2 ^ 53 := by
      have : (x.significand : ℚ) + 1 ≤ 2 ^ 53 := by exact_mod_cast x.significand_lt
      linarith
    have hE : ratioExponent num den = x.exponent := by
      refine le_antisymm (Int.lt_add_one_iff.1 (exponent_lt_of_scaled h52 hE1 ?_))
        (Int.lt_add_one_iff.1 (exponent_lt_of_scaled h52 hbig ?_))
      · rw [zpow_add_one₀ (by norm_num)]
        nlinarith
      · rw [zpow_add_one₀ (by norm_num)]; linarith
    rw [hE, max_eq_left x.exponent_ge]
    exact hat
  have hEq : ratioExponent num den < x.exponent := exponent_lt_of_scaled h52 hE1 (not_le.1 hbig)
  by_cases hq : x.exponent = -1074
  · -- below the smallest normal binade the ratio is read at the smallest exponent
    rw [max_eq_right (by omega), ← hq]
    exact hat
  · -- just below a power of two: read one binade down, and rounded up to the power
    have hq' : -1074 < x.exponent := lt_of_le_of_ne x.exponent_ge (Ne.symm hq)
    have hm52 : x.significand = 2 ^ 52 := by
      have : (x.significand : ℚ) < 2 ^ 52 + 1 := by
        have := lt_of_mul_lt_mul_right (lt_of_le_of_lt hhalf (not_le.1 hbig)) hq0.le
        linarith
      have : x.significand < 2 ^ 52 + 1 := by exact_mod_cast this
      have := significand_ge hq'
      omega
    have hq4 := hquarter ((lowerClose_iff x).2 ⟨hm52, hq'⟩)
    rw [hm52] at hq4
    push_cast at hq4
    have hE : ratioExponent num den = x.exponent - 1 := by
      refine le_antisymm (by omega) (Int.lt_add_one_iff.1 (exponent_lt_of_scaled (v := (num : ℚ) / den) h52 ?_ ?_))
      · rw [zpow_sub_one₀ (by norm_num)]; linarith
      · rw [zpow_add_one₀ (by norm_num)]; linarith
    rw [hE, max_eq_left (by omega), roundedQuotient_below_power hden hq4 (not_le.1 hbig), if_pos rfl,
      sub_add_cancel, ← hm52, assemble_parts hx]

end Binary64

end NodeFlow
