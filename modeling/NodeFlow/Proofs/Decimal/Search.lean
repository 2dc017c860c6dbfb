import Mathlib.Algebra.Order.Floor.Semifield
import Mathlib.Data.Rat.Floor
import NodeFlow.Proofs.Decimal.Nearest
/-!
# The shortest digits round to their double

The digit search compares exact ratios; read as rationals (`Ratio.val`), its
test `roundsTo` is the rounding interval `RoundsTo`. `decimalExponent` starts
below the true exponent and only steps up while `10 ^ e` stays below the
value, so at the seventeenth step the grid spacing `10 ^ (e - 16)` is narrower
than the rounding interval and one of the two grid points beside the value lies
strictly inside it (`roundsTo_at_seventeen`). The search stops at the first step
with such a point, and trimming zeros keeps the value, so whatever it returns
rounds to the double (`shortest_roundsTo`).
-/

namespace NodeFlow

namespace Decimal

namespace Ratio

/-- The rational number a ratio stands for. -/
def val (a : Ratio) : ℚ := a.num / a.den

theorem zpow_eq_div (b : ℚ) (k : Int) : b ^ k = b ^ k.toNat / b ^ (-k).toNat := by
  rcases le_or_gt 0 k with hk | hk
  · have h0 : (-k).toNat = 0 := by omega
    rw [h0, pow_zero, div_one, ← zpow_natCast, Int.toNat_of_nonneg hk]
  · have h0 : k.toNat = 0 := by omega
    rw [h0, pow_zero, ← zpow_natCast, Int.toNat_of_nonneg (by omega), zpow_neg, one_div, inv_inv]

theorem den_scaled_pos (c : Nat) (k t : Int) : 0 < (scaled c k t).den := by
  unfold scaled
  simp only [Nat.pow_eq]
  positivity

theorem val_scaled (c : Nat) (k t : Int) : (scaled c k t).val = c * 10 ^ k * 2 ^ t := by
  unfold val scaled
  simp only [Nat.pow_eq, Nat.cast_mul, Nat.cast_pow, Nat.cast_ofNat]
  rw [zpow_eq_div 10 k, zpow_eq_div 2 t]
  field_simp

theorem le_iff {a b : Ratio} (ha : 0 < a.den) (hb : 0 < b.den) : a.le b = true ↔ a.val ≤ b.val := by
  unfold le val
  rw [decide_eq_true_iff, div_le_div_iff₀ (by exact_mod_cast ha) (by exact_mod_cast hb)]
  exact_mod_cast Iff.rfl

theorem lt_iff {a b : Ratio} (ha : 0 < a.den) (hb : 0 < b.den) : a.lt b = true ↔ a.val < b.val := by
  unfold lt val
  rw [decide_eq_true_iff, div_lt_div_iff₀ (by exact_mod_cast ha) (by exact_mod_cast hb)]
  exact_mod_cast Iff.rfl

theorem scaled_le_iff (a b : Nat) (k t k' t' : Int) :
    (scaled a k t).le (scaled b k' t') = true ↔ (scaled a k t).val ≤ (scaled b k' t').val :=
  le_iff (den_scaled_pos _ _ _) (den_scaled_pos _ _ _)

theorem scaled_lt_iff (a b : Nat) (k t k' t' : Int) :
    (scaled a k t).lt (scaled b k' t') = true ↔ (scaled a k t).val < (scaled b k' t').val :=
  lt_iff (den_scaled_pos _ _ _) (den_scaled_pos _ _ _)

end Ratio

/-- **The test of a candidate is its rational interval**: `c · 10 ^ k` passes
`roundsTo` exactly when it rounds to `m · 2 ^ q`. -/
theorem roundsTo_iff {m : Nat} (hm : 0 < m) (q : Int) (lowerClose : Bool) (c : Nat) (k : Int) :
    roundsTo m q lowerClose c k = true ↔ RoundsTo m q lowerClose (c * 10 ^ k) := by
  have hlow : (((if lowerClose then 4 * m - 1 else 4 * m - 2 : Nat)) : ℚ) * 2 ^ q =
      4 * (((m : ℚ) - if lowerClose then 1 / 4 else 1 / 2) * 2 ^ q) := by
    split <;> push_cast [show 1 ≤ 4 * m by omega, show 2 ≤ 4 * m by omega] <;> ring
  have hhigh : ((4 * m + 2 : Nat) : ℚ) * 2 ^ q = 4 * (((m : ℚ) + 1 / 2) * 2 ^ q) := by push_cast; ring
  have hpoint : (c : ℚ) * 10 ^ k * 2 ^ (2 : Int) = 4 * (c * 10 ^ k) := by norm_num; ring
  unfold roundsTo RoundsTo
  dsimp only
  by_cases hpar : m % 2 = 0
  · simp only [hpar, beq_self_eq_true, if_true, Bool.and_eq_true, Ratio.scaled_le_iff, Ratio.val_scaled,
      zpow_zero, mul_one, hlow, hhigh, hpoint]
    constructor <;> rintro ⟨h1, h2⟩ <;> constructor <;> linarith
  · simp only [hpar, if_false, beq_iff_eq, Bool.and_eq_true, Ratio.scaled_lt_iff,
      Ratio.val_scaled, zpow_zero, mul_one, hlow, hhigh, hpoint]
    constructor <;> rintro ⟨h1, h2⟩ <;> constructor <;> linarith

/-- Chunks of ten binary digits gain less than two decimal digits over three
each, up to a hundred and eight chunks. -/
theorem pow_1024_le (j : Nat) (hj : j ≤ 108) : 1024 ^ j ≤ 100 * 1000 ^ j := by
  have htop : 1024 ^ 108 ≤ 100 * 1000 ^ 108 := by decide
  have hsplit : 1024 ^ j * 1000 ^ (108 - j) ≤ 100 * 1000 ^ j * 1000 ^ (108 - j) := by
    calc 1024 ^ j * 1000 ^ (108 - j) ≤ 1024 ^ j * 1024 ^ (108 - j) :=
          Nat.mul_le_mul_left _ (Nat.pow_le_pow_left (by decide) _)
      _ = 1024 ^ 108 := by rw [← Nat.pow_add, Nat.add_sub_cancel' hj]
      _ ≤ 100 * 1000 ^ 108 := htop
      _ = 100 * 1000 ^ j * 1000 ^ (108 - j) := by rw [Nat.mul_assoc, ← Nat.pow_add, Nat.add_sub_cancel' hj]
  exact Nat.le_of_mul_le_mul_right hsplit (by positivity)

/-- Three decimal digits take at most ten binary ones. -/
theorem ten_pow_le_two_pow {s n : Nat} (h : 10 * s ≤ 3 * n) : 10 ^ s ≤ 2 ^ n := by
  refine (Nat.pow_le_pow_iff_left (by norm_num : 10 ≠ 0)).1 ?_
  calc (10 ^ s) ^ 10 = 10 ^ (10 * s) := by rw [← Nat.pow_mul, Nat.mul_comm]
    _ ≤ 10 ^ (3 * n) := Nat.pow_le_pow_right (by norm_num) h
    _ = 1000 ^ n := by rw [Nat.pow_mul]
    _ ≤ 1024 ^ n := Nat.pow_le_pow_left (by norm_num) n
    _ = (2 ^ n) ^ 10 := by rw [← Nat.pow_mul, Nat.mul_comm, Nat.pow_mul]

/-- A power of two below `2 ^ 1090` is at most the power of ten that counts
three decimal digits for each chunk of ten binary ones, `0.30103` of one for
each binary digit left over, and two to spare. -/
theorem two_pow_le_ten_pow {M e : Nat} (hM : M / 10 ≤ 108)
    (he : 3 * (M / 10) + (30103 * (M % 10) + 99999) / 100000 + 2 ≤ e) : 2 ^ M ≤ 10 ^ e := by
  have hrest : ∀ r < 10, 2 ^ r ≤ 10 ^ ((30103 * r + 99999) / 100000) := by decide
  calc 2 ^ M = 1024 ^ (M / 10) * 2 ^ (M % 10) := by
        rw [show (1024 : Nat) = 2 ^ 10 by norm_num, ← Nat.pow_mul, ← Nat.pow_add, Nat.div_add_mod]
    _ ≤ 100 * 1000 ^ (M / 10) * 10 ^ ((30103 * (M % 10) + 99999) / 100000) :=
        Nat.mul_le_mul (pow_1024_le _ hM) (hrest _ (Nat.mod_lt _ (by norm_num)))
    _ = 10 ^ (3 * (M / 10) + (30103 * (M % 10) + 99999) / 100000 + 2) := by
        rw [show (1000 : Nat) = 10 ^ 3 by norm_num, ← Nat.pow_mul]; ring
    _ ≤ 10 ^ e := Nat.pow_le_pow_right (by norm_num) he

/-- **The estimate `decimalExponent` starts from is low enough**: with
`log 2 / log 10 < 0.30103` and two to spare, `10 ^ start ≤ 2 ^ L` over the
binary exponents of doubles. -/
theorem ten_zpow_start_le {L : Int} (hlo : -1080 ≤ L) (hhi : L ≤ 1941) :
    (10 : ℚ) ^ (L * 30103 / 100000 - 2) ≤ 2 ^ L := by
  rcases le_or_gt 0 L with hL | hL
  · rcases lt_or_ge (L * 30103 / 100000 - 2) 0 with hs | hs
    · -- a negative start is below one
      calc (10 : ℚ) ^ (L * 30103 / 100000 - 2) ≤ 1 := zpow_le_one_of_nonpos₀ (by norm_num) hs.le
        _ ≤ 2 ^ L := one_le_zpow₀ (by norm_num) hL
    · obtain ⟨s, hsdef⟩ : ∃ s : Nat, (s : Int) = L * 30103 / 100000 - 2 := ⟨_, Int.toNat_of_nonneg hs⟩
      obtain ⟨n, rfl⟩ : ∃ n : Nat, (n : Int) = L := ⟨_, Int.toNat_of_nonneg hL⟩
      rw [← hsdef, zpow_natCast, zpow_natCast]
      exact_mod_cast ten_pow_le_two_pow (by omega)
  · -- below one, compare the inverses
    obtain ⟨M, hM⟩ : ∃ M : Nat, (M : Int) = -L := ⟨_, Int.toNat_of_nonneg (by omega)⟩
    obtain ⟨c, hc⟩ : ∃ c : Nat, (c : Int) = -(L * 30103 / 100000) := ⟨_, Int.toNat_of_nonneg (by omega)⟩
    have hnat : 2 ^ M ≤ 10 ^ (c + 2) := two_pow_le_ten_pow (by omega) (by omega)
    have hs : L * 30103 / 100000 - 2 = -((c + 2 : Nat) : Int) := by push_cast; omega
    have hL' : L = -(M : Int) := by omega
    rw [hs, hL', zpow_neg, zpow_neg, zpow_natCast, zpow_natCast]
    apply inv_anti₀ (by positivity)
    exact_mod_cast hnat

/-- Each step up keeps `10 ^ e` at most the value. -/
theorem up_le {value : Ratio} (hden : 0 < value.den) :
    ∀ fuel e, (10 : ℚ) ^ e ≤ value.val → (10 : ℚ) ^ decimalExponent.up value fuel e ≤ value.val
  | 0, _, h => h
  | fuel + 1, e, h => by
    unfold decimalExponent.up
    split
    · rename_i hle
      rw [Ratio.le_iff (Ratio.den_scaled_pos _ _ _) hden, Ratio.val_scaled] at hle
      exact up_le hden fuel (e + 1) (by simpa using hle)
    · exact h

/-- **The decimal exponent found is at most the true one**: `10 ^ e ≤ m · 2 ^ q`. -/
theorem decimalExponent_le {m : Nat} {q : Int} (hm : 0 < m) (hm53 : m < 2 ^ 53) (hqlo : -1074 ≤ q)
    (hqhi : q ≤ 971) : (10 : ℚ) ^ decimalExponent m q ≤ m * 2 ^ q := by
  have hlog : m.log2 < 53 := (Nat.log2_lt hm.ne').2 hm53
  have hval : (Ratio.scaled m 0 q).val = m * 2 ^ q := by simp [Ratio.val_scaled]
  unfold decimalExponent
  dsimp only
  rw [← hval]
  refine up_le (Ratio.den_scaled_pos _ _ _) 6 _ (le_trans (ten_zpow_start_le (by omega) (by omega)) ?_)
  -- `2 ^ (log₂ m + q) ≤ m · 2 ^ q`
  rw [hval, zpow_add₀ (by norm_num), zpow_natCast]
  gcongr
  exact_mod_cast Nat.log2_self_le hm.ne'

/-- A value strictly inside the rounding interval rounds to `m · 2 ^ q`, whatever
the parity of `m`. -/
theorem RoundsTo.of_strict {m : Nat} {q : Int} {lowerClose : Bool} {v : ℚ}
    (hlow : ((m : ℚ) - if lowerClose then 1 / 4 else 1 / 2) * 2 ^ q < v)
    (hhigh : v < ((m : ℚ) + 1 / 2) * 2 ^ q) : RoundsTo m q lowerClose v := by
  simp only [RoundsTo]
  split
  · exact ⟨hlow.le, hhigh.le⟩
  · exact ⟨hlow, hhigh⟩

/-- The value `digits · 10 ^ exp10`. -/
def Scientific.val (s : Scientific) : ℚ := s.digits * 10 ^ s.exp10

/-- Dropping a trailing zero digit and raising the exponent keeps the value. -/
theorem Scientific.trim_go_val : ∀ fuel d e, (Scientific.trim.go fuel d e).val = d * (10 : ℚ) ^ e
  | 0, _, _ => rfl
  | fuel + 1, d, e => by
    unfold Scientific.trim.go
    split
    · rename_i hd
      rw [trim_go_val, zpow_add_one₀ (by norm_num)]
      have hsplit : d = d / 10 * 10 := (Nat.div_mul_cancel (Nat.dvd_of_mod_eq_zero hd.2)).symm
      conv_rhs => rw [hsplit]
      push_cast
      ring
    · rfl

@[simp]
theorem Scientific.trim_val (s : Scientific) : s.trim.val = s.val :=
  Scientific.trim_go_val _ _ _

/-- The floor taken at a search step: `⌊value / 10 ^ k⌋`. -/
def stepFloor (value : Ratio) (k : Int) : Nat :=
  (Ratio.mk (value.num * Nat.pow 10 (-k).toNat) (value.den * Nat.pow 10 k.toNat)).floor

theorem stepFloor_spec {value : Ratio} (hden : 0 < value.den) (k : Int) :
    (stepFloor value k : ℚ) * 10 ^ k ≤ value.val ∧ value.val < ((stepFloor value k : ℚ) + 1) * 10 ^ k := by
  have hpos : (0 : ℚ) < 10 ^ k := zpow_pos (by norm_num) k
  -- the ratio floored is `value / 10 ^ k`
  have hratio : ((value.num * Nat.pow 10 (-k).toNat : Nat) : ℚ) / (value.den * Nat.pow 10 k.toNat : Nat) =
      value.val / 10 ^ k := by
    have hd : (value.den : ℚ) ≠ 0 := by exact_mod_cast hden.ne'
    simp only [Ratio.val, Nat.pow_eq, Nat.cast_mul, Nat.cast_pow, Ratio.zpow_eq_div (10 : ℚ) k]
    field_simp
    push_cast
    ring
  have hfloor : (stepFloor value k : ℚ) = Nat.floor (value.val / 10 ^ k) := by
    rw [← hratio, Nat.floor_div_eq_div]
    rfl
  have hnonneg : 0 ≤ value.val / 10 ^ k := div_nonneg (by unfold Ratio.val; positivity) hpos.le
  constructor
  · rw [← le_div_iff₀ hpos, hfloor]
    exact Nat.floor_le hnonneg
  · rw [← div_lt_iff₀ hpos, hfloor]
    exact Nat.lt_floor_add_one _

/-- Of two neighbouring grid points `lo · h` and `(lo + 1) · h` around `v`, one lies
strictly inside `(v - a, v + b)` when the grid step `h` is below its width. -/
theorem grid_point_within {v a b h : ℚ} {lo : Nat} (ha : 0 < a) (hb : 0 < b) (hh : h < a + b)
    (hlo : lo * h ≤ v) (hhi : v < (lo + 1) * h) :
    (v - a < lo * h ∧ lo * h < v + b) ∨ (v - a < (lo + 1) * h ∧ (lo + 1) * h < v + b) := by
  by_cases hnear : v - a < lo * h
  · exact Or.inl ⟨hnear, by linarith⟩
  · exact Or.inr ⟨by linarith, by linarith⟩

theorem nearer_cases (m : Nat) (q : Int) (lo : Nat) (k : Int) :
    nearer m q lo k = lo ∨ nearer m q lo k = lo + 1 := by
  unfold nearer
  dsimp only
  split
  · exact Or.inl rfl
  split
  · exact Or.inr rfl
  split
  · exact Or.inl rfl
  · exact Or.inr rfl

/-- **The search step by step**: if the grid of `N` significant digits has a point
that rounds to `m · 2 ^ q`, a search from any earlier step with fuel to reach
step `N` returns a value that rounds to it. -/
theorem search_roundsTo {m : Nat} {q : Int} {lowerClose : Bool} {e : Int} {value : Ratio} {N : Nat}
    (hm : 0 < m)
    (hN : roundsTo m q lowerClose (stepFloor value (e - N + 1)) (e - N + 1) = true ∨
      roundsTo m q lowerClose (stepFloor value (e - N + 1) + 1) (e - N + 1) = true) :
    ∀ fuel n, n ≤ N → N < n + fuel →
      RoundsTo m q lowerClose (shortestOf.search m q lowerClose e value fuel n).val
  | 0, n, hn, hfuel => absurd hfuel (by omega)
  | fuel + 1, n, hn, hfuel => by
    unfold shortestOf.search
    dsimp only
    split
    · -- both grid points round: the nearer is one of them
      rename_i hboth
      obtain ⟨hlo, hhi⟩ := Bool.and_eq_true_iff.1 hboth
      rw [Scientific.trim_val]
      rcases nearer_cases m q (stepFloor value (e - n + 1)) (e - n + 1) with h | h <;>
        simp only [stepFloor] at h <;> rw [Scientific.val, h]
      · exact (roundsTo_iff hm _ _ _ _).1 hlo
      · exact_mod_cast (roundsTo_iff hm _ _ _ _).1 hhi
    split
    · rename_i hlo
      rw [Scientific.trim_val]
      exact (roundsTo_iff hm _ _ _ _).1 hlo
    split
    · rename_i hhi
      rw [Scientific.trim_val, Scientific.val]
      exact_mod_cast (roundsTo_iff hm _ _ _ _).1 hhi
    · -- neither rounds: this is not step `N`, so the search goes on
      rename_i hneither _ _
      rcases Nat.lt_or_ge n N with hlt | hge
      · exact search_roundsTo hm hN fuel (n + 1) hlt (by omega)
      · obtain rfl : n = N := by omega
        simp only [stepFloor] at hN
        rcases hN with h | h <;> simp_all

section SeventeenDigits

variable {m : Nat} {q : Int} {lowerClose : Bool}

/-- The grid of seventeen significant digits is finer than the rounding interval
of any double, a power of two's narrower lower side included. -/
theorem seventeen_digits_step_lt (hm : 0 < m) (hm53 : m < 2 ^ 53) (hlc : lowerClose = true → m = 2 ^ 52)
    (hqlo : -1074 ≤ q) (hqhi : q ≤ 971) :
    (10 : ℚ) ^ (decimalExponent m q - 17 + 1) <
      (if lowerClose then 1 / 4 else 1 / 2) * 2 ^ q + 1 / 2 * 2 ^ q := by
  have hq : (0 : ℚ) < 2 ^ q := zpow_pos (by norm_num) q
  -- `10 ^ k · 10 ^ 16 = 10 ^ E ≤ m · 2 ^ q`
  have hstep : (10 : ℚ) ^ (decimalExponent m q - 17 + 1) * 10 ^ 16 ≤ m * 2 ^ q := by
    rw [← zpow_natCast, ← zpow_add₀ (by norm_num)]
    convert decimalExponent_le hm hm53 hqlo hqhi using 2
    push_cast
    ring
  cases lowerClose
  · -- `m < 2 ^ 53 < 10 ^ 16`
    have hm' : (m : ℚ) < 10 ^ 16 := by exact_mod_cast hm53.trans (by norm_num)
    simp only [Bool.false_eq_true, if_false]
    nlinarith
  · -- `m = 2 ^ 52`, and `4 · 2 ^ 52 < 3 · 10 ^ 16`
    have hm' : (m : ℚ) = 2 ^ 52 := by exact_mod_cast hlc rfl
    rw [hm'] at hstep
    simp only [if_true]
    nlinarith

/-- **Seventeen digits always suffice**: at step seventeen one of the two grid
points beside the double rounds to it. -/
theorem roundsTo_at_seventeen (hm : 0 < m) (hm53 : m < 2 ^ 53) (hlc : lowerClose = true → m = 2 ^ 52)
    (hqlo : -1074 ≤ q) (hqhi : q ≤ 971) :
    let k := decimalExponent m q - (17 : Nat) + 1
    roundsTo m q lowerClose (stepFloor (Ratio.scaled m 0 q) k) k = true ∨
      roundsTo m q lowerClose (stepFloor (Ratio.scaled m 0 q) k + 1) k = true := by
  intro k
  have hval : (Ratio.scaled m 0 q).val = m * 2 ^ q := by simp [Ratio.val_scaled]
  obtain ⟨hfl, hfh⟩ := stepFloor_spec (Ratio.den_scaled_pos m 0 q) k
  rw [hval] at hfl hfh
  have hgap : (10 : ℚ) ^ k < (if lowerClose then 1 / 4 else 1 / 2) * 2 ^ q + 1 / 2 * 2 ^ q :=
    seventeen_digits_step_lt hm hm53 hlc hqlo hqhi
  have hq : (0 : ℚ) < 2 ^ q := zpow_pos (by norm_num) q
  have ha : (0 : ℚ) < (if lowerClose then 1 / 4 else 1 / 2) * 2 ^ q := by split <;> positivity
  rw [roundsTo_iff hm, roundsTo_iff hm]
  rcases grid_point_within ha (by positivity) hgap hfl hfh with ⟨h1, h2⟩ | ⟨h1, h2⟩
  · exact Or.inl (RoundsTo.of_strict (by linarith) (by linarith))
  · exact Or.inr (RoundsTo.of_strict (by push_cast; linarith) (by push_cast; linarith))

/-- **The shortest digits round to the double** they were found for. -/
theorem shortestOf_roundsTo (hm : 0 < m) (hm53 : m < 2 ^ 53) (hlc : lowerClose = true → m = 2 ^ 52)
    (hqlo : -1074 ≤ q) (hqhi : q ≤ 971) :
    RoundsTo m q lowerClose (shortestOf m q lowerClose).val :=
  search_roundsTo hm (roundsTo_at_seventeen hm hm53 hlc hqlo hqhi) 17 1 (by omega) (by omega)

end SeventeenDigits

/-- The shortest digits of a finite nonzero double round back to it. -/
theorem shortest_roundsTo {x : Binary64} (hx : x.isSpecial = false) (hm : x.significand ≠ 0) :
    RoundsTo x.significand x.exponent (x.fraction == 0 && 1 < x.biasedExponent) (shortest x).val := by
  unfold shortest
  rw [if_neg hm]
  exact shortestOf_roundsTo (Nat.pos_of_ne_zero hm) (Binary64.significand_lt x)
    (fun h => ((Binary64.lowerClose_iff x).1 h).1) (Binary64.exponent_ge x) (Binary64.exponent_le hx)

end Decimal

end NodeFlow
