import NodeFlow.Proofs.Json.Doubles
import NodeFlow.Proofs.Decimal.Search
/-!
# Written doubles are read back exactly

A double is written with its shortest digits, and those digits round to it
(`shortest_roundsTo`); the reader rounds the decimal it reads to the nearest
double, and a value inside the rounding interval of `x` is rounded to `x`
(`ofRatio_of_roundsTo`). Before rounding, the reader sends a decimal of more
than 310 digits before the point to infinity and one with more than 330 zeros
after it to zero; the value of a finite nonzero double lies far inside both
limits (`ofScientific_of_roundsTo`). Zeros and infinities are written with
their sign and read back as themselves, and every NaN is read as the one NaN
the reader gives. So reading the written text of `x` gives `x` itself unless
`x` is a NaN (`rereadDouble_eq`).
-/

namespace NodeFlow

namespace Decimal

theorem two_pow_1024_le : (2 : Nat) ^ 1024 ≤ 10 ^ 309 :=
  calc (2 : Nat) ^ 1024 = (2 ^ 128) ^ 8 := by rw [← pow_mul]
    _ ≤ (4 * 10 ^ 38) ^ 8 := Nat.pow_le_pow_left (by decide) 8
    _ = 4 ^ 8 * 10 ^ 304 := by rw [mul_pow, ← pow_mul]
    _ ≤ 10 ^ 5 * 10 ^ 304 := Nat.mul_le_mul_right _ (by decide)
    _ = 10 ^ 309 := by rw [← pow_add]

theorem two_pow_1075_le : (2 : Nat) ^ 1075 ≤ 10 ^ 331 :=
  calc (2 : Nat) ^ 1075 = 2 ^ 1024 * 2 ^ 51 := by rw [← pow_add]
    _ ≤ 10 ^ 309 * 10 ^ 22 := Nat.mul_le_mul two_pow_1024_le (by decide)
    _ = 10 ^ 331 := by rw [← pow_add]

/-- A positive number has `digitCount` digits: it lies between the powers of ten
below and at that count. -/
theorem digitCount_bounds {c : Nat} (hc : c ≠ 0) :
    10 ^ (digitCount c - 1) ≤ c ∧ c < 10 ^ digitCount c := by
  have hpos : 0 < digitCount c := Nat.length_toDigits_pos
  refine ⟨?_, (Nat.length_toDigits_le_iff (by decide) hpos).1 (Nat.le_refl _)⟩
  rcases Nat.lt_or_ge 1 (digitCount c) with h | h
  · -- more than one digit: below the lower power it would have fewer
    refine Nat.le_of_not_lt fun hlt => ?_
    have hshort := (Nat.length_toDigits_le_iff (b := 10) (n := c) (by decide)
      (show 0 < digitCount c - 1 by omega)).2 hlt
    unfold digitCount at hshort h
    omega
  · rw [show digitCount c - 1 = 0 by omega, pow_zero]
    exact Nat.one_le_iff_ne_zero.2 hc

theorem coefficient_scaled_bounds {c : Nat} (hc : c ≠ 0) (k : Int) :
    (10 : ℚ) ^ ((digitCount c : Int) + k - 1) ≤ c * 10 ^ k ∧
      (c : ℚ) * 10 ^ k < 10 ^ ((digitCount c : Int) + k) := by
  obtain ⟨hlo, hhi⟩ := digitCount_bounds hc
  have hk : (0 : ℚ) < 10 ^ k := zpow_pos (by norm_num) k
  have hpos : 0 < digitCount c := Nat.length_toDigits_pos
  constructor
  · rw [show (digitCount c : Int) + k - 1 = ((digitCount c - 1 : Nat) : Int) + k by omega,
      zpow_add₀ (by norm_num), zpow_natCast]
    gcongr
    exact_mod_cast hlo
  · rw [zpow_add₀ (by norm_num), zpow_natCast]
    gcongr
    exact_mod_cast hhi

end Decimal

namespace Binary64

open Decimal

/-- A value that rounds to a finite double lies below `2 ^ 1024`. -/
theorem lt_two_pow_1024_of_roundsTo {x : Binary64} (hx : x.isSpecial = false) {lowerClose : Bool} {v : ℚ}
    (hv : RoundsTo x.significand x.exponent lowerClose v) : v < 2 ^ (1024 : Int) := by
  obtain ⟨-, hhi, -, -⟩ := hv.bounds
  have hm : (x.significand : ℚ) + 1 / 2 < 2 ^ (53 : Int) := by
    have h := x.significand_lt
    have h' : (x.significand : ℚ) ≤ 2 ^ 53 - 1 := by
      rw [le_sub_iff_add_le]
      exact_mod_cast h
    rw [show (2 : ℚ) ^ (53 : Int) = 2 ^ 53 by norm_num]
    linarith
  have hq : (2 : ℚ) ^ x.exponent ≤ 2 ^ (971 : Int) := zpow_le_zpow_right₀ (by norm_num) (exponent_le hx)
  calc v ≤ ((x.significand : ℚ) + 1 / 2) * 2 ^ x.exponent := hhi
    _ < 2 ^ (53 : Int) * 2 ^ (971 : Int) := by
      apply mul_lt_mul hm hq (zpow_pos (by norm_num) _) (by positivity)
    _ = 2 ^ (1024 : Int) := by rw [← zpow_add₀ (by norm_num)]; norm_num

/-- A value that rounds to a finite nonzero double is at least `2 ^ -1075`. -/
theorem le_of_roundsTo_of_ne_zero {x : Binary64} (hm : x.significand ≠ 0) {lowerClose : Bool} {v : ℚ}
    (hv : RoundsTo x.significand x.exponent lowerClose v) : 2 ^ (-1075 : Int) ≤ v := by
  obtain ⟨hlo, -, -, -⟩ := hv.bounds
  have hm1 : (1 : ℚ) / 2 ≤ (x.significand : ℚ) - 1 / 2 := by
    have : (1 : ℚ) ≤ x.significand := by exact_mod_cast Nat.one_le_iff_ne_zero.2 hm
    linarith
  have hq : (2 : ℚ) ^ (-1074 : Int) ≤ 2 ^ x.exponent := zpow_le_zpow_right₀ (by norm_num) (exponent_ge x)
  calc (2 : ℚ) ^ (-1075 : Int) = 1 / 2 * 2 ^ (-1074 : Int) := by
        rw [show (-1075 : Int) = -1 + -1074 by norm_num, zpow_add₀ (by norm_num)]
        norm_num
    _ ≤ ((x.significand : ℚ) - 1 / 2) * 2 ^ x.exponent := by
      apply mul_le_mul hm1 hq (zpow_pos (by norm_num) _).le (by linarith)
    _ ≤ v := hlo

/-- **A decimal that rounds to a finite nonzero double is read as that double**,
with the double's sign: it lies within the reader's range limits, so the
reader rounds it, to the double. -/
theorem ofScientific_of_roundsTo {x : Binary64} (hx : x.isSpecial = false) (hm : x.significand ≠ 0)
    {c : Nat} {k : Int} (hc : c ≠ 0)
    (hv : RoundsTo x.significand x.exponent (x.fraction == 0 && 1 < x.biasedExponent) (c * 10 ^ k)) :
    ofScientific x.signBit c k = x := by
  have hhi := lt_two_pow_1024_of_roundsTo hx hv
  have hlo := le_of_roundsTo_of_ne_zero hm hv
  obtain ⟨hdlo, hdhi⟩ := coefficient_scaled_bounds hc k
  -- the range limits, as powers of ten against powers of two
  have h1024 : (2 : ℚ) ^ (1024 : Int) ≤ 10 ^ (309 : Int) := by
    rw [zpow_ofNat, zpow_ofNat]
    exact_mod_cast two_pow_1024_le
  have h1075 : (10 : ℚ) ^ (-331 : Int) ≤ 2 ^ (-1075 : Int) := by
    rw [zpow_neg, zpow_neg, zpow_ofNat, zpow_ofNat]
    exact inv_anti₀ (by positivity) (by exact_mod_cast two_pow_1075_le)
  have hbig : ¬(310 < (digitCount c : Int) + k) := by
    intro h
    have hpow : (10 : ℚ) ^ (309 : Int) ≤ 10 ^ ((digitCount c : Int) + k - 1) :=
      zpow_le_zpow_right₀ (by norm_num) (by omega)
    exact absurd ((hpow.trans hdlo).trans_lt (hhi.trans_le h1024)) (lt_irrefl _)
  have hsmall : ¬((digitCount c : Int) + k < -330) := by
    intro h
    have hpow : (10 : ℚ) ^ ((digitCount c : Int) + k) ≤ 10 ^ (-331 : Int) :=
      zpow_le_zpow_right₀ (by norm_num) (by omega)
    exact absurd (hlo.trans_lt (hdhi.trans_le (hpow.trans h1075))) (lt_irrefl _)
  unfold ofScientific
  rw [if_neg hc]
  dsimp only
  rw [if_neg hbig, if_neg hsmall]
  -- the ratio rounded is `c · 10 ^ k`
  have hratio : ((c * Nat.pow 10 k.toNat : Nat) : ℚ) / (Nat.pow 10 (-k).toNat : Nat) = c * 10 ^ k := by
    simp only [Nat.pow_eq, Nat.cast_mul, Nat.cast_pow, Ratio.zpow_eq_div (10 : ℚ) k]
    field_simp
    push_cast
    ring
  refine ofRatio_of_roundsTo hx hm (by simp only [Nat.pow_eq]; positivity) ?_
  rwa [hratio]

end Binary64

namespace Json

open Reader Decimal

theorem isSpecial_eq_false {x : Binary64} (hnan : x.isNaN = false) (hinf : x.isInfinite = false) :
    x.isSpecial = false := by
  unfold Binary64.isNaN at hnan
  unfold Binary64.isInfinite at hinf
  cases h : x.isSpecial <;> simp_all

/-- **A finite nonzero double is read back as itself.** -/
theorem rereadDouble_of_ne_zero {x : Binary64} (hnan : x.isNaN = false) (hinf : x.isInfinite = false)
    (hz : x.significand ≠ 0) : rereadDouble x = x := by
  have hx := isSpecial_eq_false hnan hinf
  obtain ⟨t, ht, hnum, hneg, htext, z, hcoef, hscale⟩ := render_digits hnan hinf hz
  have hread : ReadsAs (Notation.jsonLike.render x).toList (ofScientific t.negative t.coefficient t.scale) := by
    rw [htext]
    exact NumberText.readsAs_scientific ht hnum
  rw [rereadDouble_of_readsAs hread, hneg]
  have hd := shortest_digits_ne_zero hz
  refine Binary64.ofScientific_of_roundsTo hx hz (by rw [hcoef]; positivity) ?_
  -- the coefficient scaled is the value of the shortest digits
  have hval : (t.coefficient : ℚ) * 10 ^ t.scale = (shortest x).val := by
    rw [hcoef, Scientific.val, ← hscale, zpow_add₀ (by norm_num), zpow_natCast]
    push_cast
    ring
  rw [hval]
  exact shortest_roundsTo hx hz

theorem render_nan {x : Binary64} (hnan : x.isNaN = true) : Notation.jsonLike.render x = "NaN" := by
  unfold Notation.render
  simp [Notation.jsonLike, Notation.shortRepr, hnan]

theorem render_infinite {x : Binary64} (hnan : x.isNaN = false) (hinf : x.isInfinite = true) :
    Notation.jsonLike.render x = (if x.signBit then "-" else "") ++ "Infinity" := by
  unfold Notation.render
  simp [Notation.jsonLike, Notation.shortRepr, hnan, hinf]

/-- A zero is written `0.0`, with its sign. -/
theorem render_zero {x : Binary64} (hnan : x.isNaN = false) (hinf : x.isInfinite = false)
    (hz : x.significand = 0) :
    (Notation.jsonLike.render x).toList = (⟨x.signBit, ['0'], some ['0'], none⟩ : NumberText).chars := by
  unfold Notation.render
  simp only [Notation.jsonLike, Notation.shortRepr, hnan, hinf, hz, Bool.false_eq_true, if_false, if_true,
    NumberText.sign_append_toList]
  cases x.signBit <;> rfl

/-- An infinity is the infinity of its sign. -/
theorem eq_infinity {x : Binary64} (hinf : x.isInfinite = true) :
    x = if x.signBit then infinity.neg else infinity := by
  unfold Binary64.isInfinite Binary64.isSpecial at hinf
  simp only [Bool.and_eq_true, beq_iff_eq] at hinf
  obtain ⟨hE, hF⟩ := hinf
  apply Binary64.eq_of_bits_toNat
  rw [Binary64.bits_toNat_eq, hE, hF]
  cases x.signBit <;> rfl

/-- A zero significand belongs to the smallest exponent. -/
theorem exponent_of_significand_eq_zero {x : Binary64} (hz : x.significand = 0) : x.exponent = -1074 := by
  unfold Binary64.significand at hz
  unfold Binary64.exponent
  split at hz
  · rw [if_pos ‹_›]
  · simp only [Nat.pow_eq] at hz
    omega

/-- **A zero is read back as itself**, with its sign. -/
theorem rereadDouble_of_zero {x : Binary64} (hnan : x.isNaN = false) (hinf : x.isInfinite = false)
    (hz : x.significand = 0) : rereadDouble x = x := by
  have hread := NumberText.readsAs_scientific (t := ⟨x.signBit, ['0'], some ['0'], none⟩)
    ⟨.inl rfl, by simp only [Option.some.injEq]; rintro _ rfl; exact digits_zero, by simp⟩ (by simp)
  rw [← render_zero hnan hinf hz] at hread
  rw [rereadDouble_of_readsAs hread]
  -- the digits `00` are zero, read as the zero of the sign
  have hcoef : (⟨x.signBit, ['0'], some ['0'], none⟩ : NumberText).coefficient = 0 := rfl
  conv_rhs => rw [← Binary64.assemble_parts (isSpecial_eq_false hnan hinf), hz,
    exponent_of_significand_eq_zero hz]
  rw [hcoef]
  rfl

/-- **Reading a written double gives it back**, a NaN as the one NaN the reader
gives. -/
theorem rereadDouble_eq (x : Binary64) : rereadDouble x = if x.isNaN then notANumber else x := by
  cases hnan : x.isNaN with
  | true =>
    rw [if_pos rfl]
    apply rereadDouble_of_readsAs
    rw [render_nan hnan]
    exact readsAs_nan
  | false =>
    rw [if_neg (by simp)]
    cases hinf : x.isInfinite with
    | true =>
      apply rereadDouble_of_readsAs
      rw [render_infinite hnan hinf, eq_infinity hinf]
      cases x.signBit
      · exact readsAs_infinity
      · exact readsAs_negInfinity
    | false =>
      by_cases hz : x.significand = 0
      · exact rereadDouble_of_zero hnan hinf hz
      · exact rereadDouble_of_ne_zero hnan hinf hz

end Json

end NodeFlow
