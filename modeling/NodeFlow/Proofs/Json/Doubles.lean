import Mathlib
import NodeFlow.Proofs.Json.Numbers
import NodeFlow.Json.Writer
/-!
# Reading written doubles back

A finite nonzero double is written with its shortest digits, which never are
the single digit `0` (`shortest_digits_ne_zero`): the search only stops on a
candidate that rounds to the double, and zero never does. So every written
double is `NaN`, `Infinity`, `-Infinity`, or a well-formed number text with a
fraction or an exponent (`render_shape`), and reading it gives one double,
whatever follows (`value_float`). That double is `rereadDouble x`.
-/

namespace NodeFlow

namespace Decimal

/-- Zero is never inside the rounding interval of a positive significand. -/
theorem roundsTo_zero {m : Nat} (hm : 0 < m) (q : Int) (lowerClose : Bool) (k : Int) :
    roundsTo m q lowerClose 0 k = false := by
  have hlow : 0 < (if lowerClose then 4 * m - 1 else 4 * m - 2) := by split <;> omega
  have hden : 0 < Nat.pow 10 (-k).toNat * Nat.pow 2 (-2 : Int).toNat :=
    Nat.mul_pos (Nat.pow_pos (by decide)) (Nat.pow_pos (by decide))
  have hnum : 0 < (if lowerClose then 4 * m - 1 else 4 * m - 2) * Nat.pow 10 (0 : Int).toNat *
      Nat.pow 2 q.toNat :=
    Nat.mul_pos (Nat.mul_pos hlow (Nat.pow_pos (by decide))) (Nat.pow_pos (by decide))
  have hprod := Nat.mul_pos hnum hden
  -- the candidate zero has numerator zero, so it is below every positive end
  have hle : (Ratio.scaled (if lowerClose then 4 * m - 1 else 4 * m - 2) 0 q).le
      (Ratio.scaled 0 k 2) = false := by
    simp only [Ratio.le, Ratio.scaled, Nat.zero_mul, decide_eq_false_iff_not, Nat.not_le]
    exact hprod
  have hlt : (Ratio.scaled (if lowerClose then 4 * m - 1 else 4 * m - 2) 0 q).lt
      (Ratio.scaled 0 k 2) = false := by
    simp only [Ratio.lt, Ratio.scaled, Nat.zero_mul, decide_eq_false_iff_not, Nat.not_lt_zero,
      not_false_eq_true]
  unfold roundsTo
  dsimp only
  split <;> simp [hle, hlt]

theorem trim_go_digits_ne_zero : ∀ (fuel d : Nat) (e : Int), d ≠ 0 →
    (Scientific.trim.go fuel d e).digits ≠ 0
  | 0, d, e, hd => hd
  | fuel + 1, d, e, hd => by
    unfold Scientific.trim.go
    split
    · exact trim_go_digits_ne_zero fuel (d / 10) (e + 1) (by omega)
    · exact hd

theorem trim_digits_ne_zero {s : Scientific} (h : s.digits ≠ 0) : s.trim.digits ≠ 0 :=
  trim_go_digits_ne_zero _ _ _ h

theorem nearer_ne_zero {m : Nat} {q : Int} {lo : Nat} {k : Int} (h : lo ≠ 0) : nearer m q lo k ≠ 0 := by
  unfold nearer
  dsimp only
  repeat' split
  all_goals omega

/-- The search for the shortest digits ends on nonzero digits: it stops only
on a candidate that rounds to the double. -/
theorem search_digits_ne_zero {m : Nat} (hm : 0 < m) (q : Int) (lowerClose : Bool) (e : Int)
    (value : Ratio) : ∀ fuel n, (shortestOf.search m q lowerClose e value fuel n).digits ≠ 0
  | 0, n => by
    unfold shortestOf.search
    exact Nat.pos_iff_ne_zero.1 hm
  | fuel + 1, n => by
    unfold shortestOf.search
    dsimp only
    -- a candidate that rounds to the double is not zero
    have hlo : ∀ lo k, roundsTo m q lowerClose lo k = true → lo ≠ 0 := by
      rintro lo k h rfl
      rw [roundsTo_zero hm] at h
      exact absurd h (by decide)
    split
    · rename_i h
      rw [Bool.and_eq_true] at h
      exact trim_digits_ne_zero (nearer_ne_zero (hlo _ _ h.1))
    · split
      · rename_i h
        exact trim_digits_ne_zero (hlo _ _ h)
      · split
        · exact trim_digits_ne_zero (by simp)
        · exact search_digits_ne_zero hm q lowerClose e value fuel (n + 1)

theorem shortest_digits_ne_zero {x : Binary64} (h : x.significand ≠ 0) : (shortest x).digits ≠ 0 := by
  unfold shortest shortestOf
  rw [if_neg h]
  exact search_digits_ne_zero (Nat.pos_iff_ne_zero.2 h) _ _ _ _ _ _

end Decimal

namespace Json

namespace Reader

open Decimal

variable {ds : List Char}

theorem digits_zeros_append (k : Nat) (h : Digits ds) : Digits (List.replicate k '0' ++ ds) := by
  refine ⟨by simp [h.1], fun d hd => ?_⟩
  rcases List.mem_append.1 hd with hd | hd
  · rw [(List.mem_replicate.1 hd).2]
    rfl
  · exact h.2 d hd

theorem Leading.append_zeros (h : Leading ds) (k : Nat) : Leading (ds ++ List.replicate k '0') := by
  obtain ⟨c, rest, rfl, hc, hrest⟩ := h
  refine ⟨c, rest ++ List.replicate k '0', rfl, hc, fun d hd => ?_⟩
  rcases List.mem_append.1 hd with hd | hd
  · exact hrest d hd
  · rw [(List.mem_replicate.1 hd).2]
    rfl

theorem Leading.take (h : Leading ds) {p : Nat} (hp : 0 < p) : Leading (ds.take p) := by
  obtain ⟨c, rest, rfl, hc, hrest⟩ := h
  exact ⟨c, rest.take (p - 1), List.take_cons hp, hc, fun d hd => hrest d (List.mem_of_mem_take hd)⟩

theorem Leading.drop (h : Leading ds) {p : Nat} (hp : p < ds.length) : Digits (ds.drop p) := by
  refine ⟨fun he => ?_, fun d hd => h.digits.2 d (List.mem_of_mem_drop hd)⟩
  rw [List.drop_eq_nil_iff] at he
  omega

theorem digitsValue_append (ds es : List Char) :
    digitsValue (ds ++ es) = digitsValue ds * 10 ^ es.length + digitsValue es := by
  rw [digitsValue_eq_ofDigitChars, digitsValue_eq_ofDigitChars, digitsValue_eq_ofDigitChars,
    Nat.ofDigitChars_append, Nat.ofDigitChars_eq_ofDigitChars_zero, Nat.mul_comm]

@[simp] theorem digitsValue_zeros (k : Nat) : digitsValue (List.replicate k '0') = 0 := by
  rw [digitsValue_eq_ofDigitChars, Nat.ofDigitChars_replicate_zero, Nat.mul_zero]

namespace NumberText

/-- The integer the reader takes a number text's digits for: its integer
digits followed by its fraction digits. -/
def coefficient (t : NumberText) : Nat := digitsValue (t.whole ++ t.fraction.getD [])

/-- The power of ten the coefficient is scaled by: the exponent written, less
the number of fraction digits. -/
def scale (t : NumberText) : Int :=
  (match t.exponent with
    | some (neg, ds) => signed neg (digitsValue ds)
    | none => 0) - (t.fraction.getD []).length

/-- A number text standing for `d · 10 ^ e`: its coefficient is `d` followed by
some zeros, and its scale is lower by as many. -/
def Scales (t : NumberText) (d : Nat) (e : Int) : Prop :=
  ∃ z : Nat, t.coefficient = d * 10 ^ z ∧ t.scale + z = e

theorem value_of_not_int {t : NumberText} (hnum : ¬(t.fraction = none ∧ t.exponent = none)) :
    t.value = .float (ofScientific t.negative t.coefficient t.scale) := by
  have hcond : ¬(t.fraction.isNone = true ∧ t.exponent.isNone = true) := by
    simpa [Option.isNone_iff_eq_none] using hnum
  unfold value
  rw [if_neg hcond]
  rfl

theorem signed_natAbs (e : Int) : signed (decide (e < 0)) e.natAbs = e := by
  unfold signed
  by_cases he : e < 0
  · rw [if_pos (decide_eq_true he)]
    omega
  · rw [if_neg (by simpa using he)]
    omega

/-- **Positional notation writes a number text with a fraction**, standing for
the digits scaled to the point. -/
theorem positional_shape (hds : Leading ds) (point : Int) :
    ∃ t : NumberText, t.negative = false ∧ t.WellFormed ∧ t.fraction.isSome ∧
      (positional (String.ofList ds) point true).toList = t.chars ∧
      t.Scales (digitsValue ds) (point - ds.length) := by
  unfold positional
  simp only [String.length_ofList, zeros, String.toList_ofList, if_true]
  by_cases h0 : point ≤ 0
  · -- `0.` and zeros before the digits
    refine ⟨⟨false, ['0'], some (List.replicate (-point).toNat '0' ++ ds), none⟩, rfl,
      ⟨.inl rfl, ?_, by simp⟩, rfl, ?_, ⟨0, ?_, ?_⟩⟩
    · simp only [Option.some.injEq]
      rintro _ rfl
      exact digits_zeros_append _ hds.digits
    · simp [h0, chars, unsigned, fractionChars, exponentChars]
    · simp only [coefficient, Option.getD_some]
      rw [digitsValue_append, digitsValue_append]
      simp [show digitsValue ['0'] = 0 from rfl]
    · simp only [scale, Option.getD_some, List.length_append, List.length_replicate]
      omega
  by_cases hl : point < ds.length
  · -- the point falls inside the digits
    refine ⟨⟨false, ds.take point.toNat, some (ds.drop point.toNat), none⟩, rfl,
      ⟨.inr (hds.take (by omega)), ?_, by simp⟩, rfl, ?_, ⟨0, ?_, ?_⟩⟩
    · simp only [Option.some.injEq]
      rintro _ rfl
      exact hds.drop (by omega)
    · simp [h0, hl, chars, unsigned, fractionChars, exponentChars]
    · simp [coefficient]
    · simp only [scale, Option.getD_some, List.length_drop]
      omega
  · -- zeros after the digits, then `.0`
    refine ⟨⟨false, ds ++ List.replicate (point - ds.length).toNat '0', some ['0'], none⟩, rfl,
      ⟨.inr (hds.append_zeros _), ?_, by simp⟩, rfl, ?_, ⟨(point - ds.length).toNat + 1, ?_, ?_⟩⟩
    · simp only [Option.some.injEq]
      rintro _ rfl
      exact digits_zero
    · simp [h0, hl, chars, unsigned, fractionChars, exponentChars]
    · simp [coefficient, digitsValue_append, show digitsValue ['0'] = 0 from rfl, Nat.pow_succ]
    · simp only [scale, Option.getD_some, List.length_singleton]
      omega

theorem toList_toString_nat (m : Nat) : (toString m).toList = Nat.toDigits 10 m := by
  show (String.ofList (Nat.toDigits 10 m)).toList = _
  rw [String.toList_ofList]

/-- **Exponential notation writes a number text with an exponent**, standing
for the digits scaled to the point. -/
theorem exponential_shape (hds : Leading ds) (point : Int) :
    ∃ t : NumberText, t.negative = false ∧ t.WellFormed ∧ t.exponent.isSome ∧
      (exponential (String.ofList ds) point 2).toList = t.chars ∧
      t.Scales (digitsValue ds) (point - ds.length) := by
  obtain ⟨c, rest, rfl, hc, hrest⟩ := hds
  -- the exponent: its sign, then its digits padded to two
  let expDigits := List.replicate (2 - (toString (point - 1).natAbs).length) '0' ++
    Nat.toDigits 10 (point - 1).natAbs
  have hexp : Digits expDigits := digits_zeros_append _ (toDigits_digits _)
  have hexpValue : digitsValue expDigits = (point - 1).natAbs := by
    simp [expDigits, digitsValue_append]
  have hsign : (if point - 1 < 0 then "-" else "+").toList =
      [if decide (point - 1 < 0) = true then '-' else '+'] := by
    by_cases h : point - 1 < 0
    · rw [if_pos h, if_pos (decide_eq_true h)]
      rfl
    · rw [if_neg h, if_neg (by simpa using h)]
      rfl
  have hwhole : Leading [c] := ⟨c, [], rfl, hc, by simp⟩
  unfold exponential
  simp only [String.toList_ofList]
  cases rest with
  | nil =>
    refine ⟨⟨false, [c], none, some (decide (point - 1 < 0), expDigits)⟩, rfl,
      ⟨.inr hwhole, by simp, ?_⟩, rfl, ?_, ⟨0, by simp [coefficient], ?_⟩⟩
    · simp only [Option.some.injEq, Prod.mk.injEq]
      rintro _ _ ⟨-, rfl⟩
      exact hexp
    · simp only [String.toList_append, String.toList_singleton, hsign, zeros, String.toList_ofList,
        toList_toString_nat, show "e".toList = ['e'] from rfl]
      simp [chars, unsigned, fractionChars, exponentChars, expDigits]
    · simp only [scale, hexpValue, signed_natAbs, Option.getD_none, List.length_nil, List.length_singleton]
      omega
  | cons r rs =>
    refine ⟨⟨false, [c], some (r :: rs), some (decide (point - 1 < 0), expDigits)⟩, rfl,
      ⟨.inr hwhole, ?_, ?_⟩, rfl, ?_, ⟨0, by simp [coefficient], ?_⟩⟩
    · simp only [Option.some.injEq]
      rintro _ rfl
      exact ⟨List.cons_ne_nil _ _, hrest⟩
    · simp only [Option.some.injEq, Prod.mk.injEq]
      rintro _ _ ⟨-, rfl⟩
      exact hexp
    · simp only [String.toList_append, String.toList_singleton, hsign, zeros, String.toList_ofList,
        toList_toString_nat, show "e".toList = ['e'] from rfl, show ".".toList = ['.'] from rfl]
      simp [chars, unsigned, fractionChars, exponentChars, expDigits]
    · simp only [scale, hexpValue, signed_natAbs, Option.getD_some, List.length_cons]
      omega

theorem sign_append_toList (b : Bool) (s : String) :
    ((if b then "-" else "") ++ s).toList = (if b then ['-'] else []) ++ s.toList := by
  cases b
  · show ("" ++ s).toList = [] ++ s.toList
    rw [String.toList_append]
    rfl
  · show ("-" ++ s).toList = ['-'] ++ s.toList
    rw [String.toList_append]
    rfl

/-- A sign in front of an unsigned number text. -/
theorem chars_signed {t : NumberText} (h : t.negative = false) (b : Bool) :
    (if b then ['-'] else []) ++ t.chars = { t with negative := b }.chars := by
  simp [chars, h]
  rfl

theorem WellFormed.signed {t : NumberText} (ht : t.WellFormed) (b : Bool) :
    ({ t with negative := b } : NumberText).WellFormed :=
  ⟨ht.whole, ht.fraction, ht.exponent⟩

end NumberText

/-- **A finite nonzero double is written as a number text of its sign with a
fraction or an exponent**, standing for its shortest digits. -/
theorem render_digits {x : Binary64} (hnan : x.isNaN = false) (hinf : x.isInfinite = false)
    (hz : x.significand ≠ 0) :
    ∃ t : NumberText, t.WellFormed ∧ ¬(t.fraction = none ∧ t.exponent = none) ∧
      t.negative = x.signBit ∧ (Notation.jsonLike.render x).toList = t.chars ∧
      t.Scales (shortest x).digits (shortest x).exp10 := by
  unfold Notation.render
  simp only [Notation.jsonLike, Notation.shortRepr, hnan, hinf, hz, Bool.false_eq_true, if_false]
  have hd : Leading (Nat.toDigits 10 (shortest x).digits) :=
    toDigits_leading (Nat.pos_of_ne_zero (shortest_digits_ne_zero hz))
  rw [show toString (shortest x).digits = String.ofList (Nat.toDigits 10 (shortest x).digits) from rfl]
  -- the position of the point decides between the two notations
  obtain ⟨point, hpoint⟩ : ∃ point : Int,
      (shortest x).exp10 + (String.ofList (Nat.toDigits 10 (shortest x).digits)).length = point :=
    ⟨_, rfl⟩
  have hscale : point - (Nat.toDigits 10 (shortest x).digits).length = (shortest x).exp10 := by
    rw [← hpoint, String.length_ofList]
    omega
  rw [hpoint]
  by_cases hp : -4 < point ∧ point ≤ 16
  · simp only [hp, and_self, if_true, NumberText.sign_append_toList]
    obtain ⟨t, hneg, ht, hf, htext, hsc⟩ := NumberText.positional_shape hd point
    refine ⟨{ t with negative := x.signBit }, ht.signed _, ?_, rfl, ?_, ?_⟩
    · rintro ⟨hn, -⟩
      rw [show t.fraction = none from hn] at hf
      exact absurd hf (by decide)
    · rw [htext, NumberText.chars_signed hneg]
    · rwa [digitsValue_toDigits, hscale] at hsc
  · simp only [hp, if_false, NumberText.sign_append_toList]
    obtain ⟨t, hneg, ht, he, htext, hsc⟩ := NumberText.exponential_shape hd point
    refine ⟨{ t with negative := x.signBit }, ht.signed _, ?_, rfl, ?_, ?_⟩
    · rintro ⟨-, hn⟩
      rw [show t.exponent = none from hn] at he
      exact absurd he (by decide)
    · rw [htext, NumberText.chars_signed hneg]
    · rwa [digitsValue_toDigits, hscale] at hsc

/-- **Every written double is `NaN`, an infinity, or a number text with a
fraction or an exponent.** -/
theorem render_shape (x : Binary64) :
    Notation.jsonLike.render x = "NaN" ∨ Notation.jsonLike.render x = "Infinity" ∨
      Notation.jsonLike.render x = "-Infinity" ∨
      ∃ t : NumberText, t.WellFormed ∧ ¬(t.fraction = none ∧ t.exponent = none) ∧
        (Notation.jsonLike.render x).toList = t.chars := by
  by_cases hfin : x.isNaN = false ∧ x.isInfinite = false ∧ x.significand ≠ 0
  · obtain ⟨t, ht, hnum, -, htext, -⟩ := render_digits hfin.1 hfin.2.1 hfin.2.2
    exact .inr (.inr (.inr ⟨t, ht, hnum, htext⟩))
  unfold Notation.render
  simp only [Notation.jsonLike, Notation.shortRepr]
  split
  · exact .inl rfl
  split
  · cases x.signBit
    · exact .inr (.inl rfl)
    · exact .inr (.inr (.inl rfl))
  split
  · -- zero is written `0.0`
    right; right; right
    refine ⟨⟨x.signBit, ['0'], some ['0'], none⟩, ⟨.inl rfl, ?_, by simp⟩, by simp, ?_⟩
    · simp only [Option.some.injEq]
      rintro _ rfl
      exact digits_zero
    · rw [if_pos trivial, NumberText.sign_append_toList]
      cases x.signBit <;> rfl
  · rename_i hnan hinf hz
    exact absurd ⟨by simpa using hnan, by simpa using hinf, hz⟩ hfin

/-- Text read as the double `y`, whatever follows it that cannot continue a
number. -/
def ReadsAs (cs : List Char) (y : Binary64) : Prop :=
  ∀ rest, Ends rest → ∀ fuel pos, ∃ p, value (fuel + 1) (cs ++ rest) pos = .ok (.float y, rest, p)

theorem readsAs_nan : ReadsAs "NaN".toList notANumber := by
  intro rest _ fuel pos
  refine ⟨pos + 3, ?_⟩
  show value (fuel + 1) ('N' :: 'a' :: 'N' :: rest) pos = _
  rfl

theorem readsAs_infinity : ReadsAs "Infinity".toList infinity := by
  intro rest _ fuel pos
  refine ⟨pos + 8, ?_⟩
  show value (fuel + 1) ('I' :: 'n' :: 'f' :: 'i' :: 'n' :: 'i' :: 't' :: 'y' :: rest) pos = _
  rfl

theorem readsAs_negInfinity : ReadsAs "-Infinity".toList infinity.neg := by
  intro rest _ fuel pos
  refine ⟨pos + 9, ?_⟩
  show value (fuel + 1) ('-' :: 'I' :: 'n' :: 'f' :: 'i' :: 'n' :: 'i' :: 't' :: 'y' :: rest) pos = _
  rfl

/-- A number text with a fraction or an exponent is read as the double nearest
to its coefficient scaled. -/
theorem NumberText.readsAs_scientific {t : NumberText} (ht : t.WellFormed)
    (hnum : ¬(t.fraction = none ∧ t.exponent = none)) :
    ReadsAs t.chars (ofScientific t.negative t.coefficient t.scale) := by
  intro rest hr fuel pos
  obtain ⟨p, hp⟩ := t.value_chars ht hr (fun hf he => absurd ⟨hf, he⟩ hnum) fuel pos
  rw [NumberText.value_of_not_int hnum] at hp
  exact ⟨p, hp⟩

/-- A number text with a fraction or an exponent is read as one double. -/
theorem NumberText.readsAs {t : NumberText} (ht : t.WellFormed)
    (hnum : ¬(t.fraction = none ∧ t.exponent = none)) : ∃ y, ReadsAs t.chars y :=
  ⟨_, NumberText.readsAs_scientific ht hnum⟩

end Reader

open Reader Decimal

/-- The double that reading the written text of `x` gives. -/
def rereadDouble (x : Binary64) : Binary64 :=
  match value 1 (Notation.jsonLike.render x).toList 0 with
  | .ok (.float y, _, _) => y
  | _ => x

theorem rereadDouble_of_readsAs {x y : Binary64} (h : ReadsAs (Notation.jsonLike.render x).toList y) :
    rereadDouble x = y := by
  obtain ⟨p, hp⟩ := h [] trivial 0 0
  rw [List.append_nil] at hp
  unfold rereadDouble
  rw [hp]

/-- **A written double is read as one double, `rereadDouble x`, whatever
follows it that cannot continue a number.** -/
theorem value_render_float (x : Binary64) {rest : List Char} (hr : Ends rest) (fuel pos : Nat) :
    ∃ p, value (fuel + 1) ((Notation.jsonLike.render x).toList ++ rest) pos =
      .ok (.float (rereadDouble x), rest, p) := by
  obtain ⟨y, hy⟩ : ∃ y, ReadsAs (Notation.jsonLike.render x).toList y := by
    rcases render_shape x with h | h | h | ⟨t, ht, hnum, htext⟩
    · exact ⟨_, h ▸ readsAs_nan⟩
    · exact ⟨_, h ▸ readsAs_infinity⟩
    · exact ⟨_, h ▸ readsAs_negInfinity⟩
    · rw [htext]
      exact NumberText.readsAs ht hnum
  rw [rereadDouble_of_readsAs hy]
  exact hy rest hr fuel pos

end Json

end NodeFlow
