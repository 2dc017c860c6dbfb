import NodeFlow.Json.Reader
/-!
# Reading written numbers back

A number is written as a sign, integer digits (`0`, or a nonzero digit and
more digits), an optional fraction and an optional exponent: a `NumberText`.
When such a text is followed by a character that cannot continue it (`Ends`),
the number reader takes exactly the text and gives the value it stands for
(`number_chars`), and so does the value reader (`value_chars`). Integers are
written as such texts (`int_chars`), so an integer of at most
`Decimal.maxIntegerDigits` digits is read back as itself (`value_int`).
-/

namespace NodeFlow

namespace Json

namespace Reader

open Decimal

/-- What may follow a number without continuing it: nothing, or a character
that is no digit, point or exponent mark. -/
def Ends : List Char → Prop
  | [] => True
  | c :: _ => c.isDigit = false ∧ c ≠ '.' ∧ c ≠ 'e' ∧ c ≠ 'E'

/-- A run of at least one digit. -/
def Digits (ds : List Char) : Prop := ds ≠ [] ∧ ∀ d ∈ ds, d.isDigit = true

/-- Text whose first character, if any, is no digit. -/
def NoDigitHead : List Char → Prop
  | [] => True
  | c :: _ => c.isDigit = false

variable {ds more rest : List Char}

/-- The lone zero is a run of digits. -/
theorem digits_zero : Digits ['0'] :=
  ⟨List.cons_ne_nil _ _, fun d hd => by rw [List.mem_singleton.1 hd]; rfl⟩

theorem noDigitHead_of_ends (h : Ends rest) : NoDigitHead rest := by
  cases rest with
  | nil => trivial
  | cons c r => exact h.1

theorem digitRun_append (hds : ∀ d ∈ ds, d.isDigit = true) (hm : NoDigitHead more) :
    digitRun (ds ++ more) = (ds, more) := by
  have htake : more.takeWhile Char.isDigit = [] := by
    cases more with
    | nil => rfl
    | cons c r => simp [show c.isDigit = false from hm]
  have hdrop : more.dropWhile Char.isDigit = more := by
    cases more with
    | nil => rfl
    | cons c r => simp [show c.isDigit = false from hm]
  simp only [digitRun, List.takeWhile_append_of_pos hds, List.dropWhile_append_of_pos hds, htake,
    hdrop, List.append_nil]

theorem signPart_of_ne {c : Char} (hc : c ≠ '-') : signPart (c :: more) = (false, c :: more, 0) := by
  unfold signPart
  split
  · rename_i heq; cases heq; contradiction
  · rfl

theorem integerPart_nonzero {c : Char} (hc : '1' ≤ c ∧ c ≤ '9') (hds : ∀ d ∈ ds, d.isDigit = true)
    (hm : NoDigitHead more) : integerPart (c :: (ds ++ more)) = some (c :: ds, more) := by
  unfold integerPart
  split
  · rename_i heq; cases heq; exact absurd hc.1 (by decide)
  · rename_i heq; cases heq
    rw [if_pos hc, digitRun_append hds hm]
  · rename_i heq; cases heq

theorem fractionPart_digits (hds : Digits ds) (hm : NoDigitHead more) :
    fractionPart ('.' :: (ds ++ more)) = (some ds, more) := by
  obtain ⟨hne, hall⟩ := hds
  obtain ⟨d, ds, rfl⟩ := List.exists_cons_of_ne_nil hne
  have hd : d.isDigit = true := hall d List.mem_cons_self
  unfold fractionPart
  simp only [List.cons_append, hd, if_true]
  rw [digitRun_append (fun d' h => hall d' (List.mem_cons_of_mem d h)) hm]

theorem fractionPart_of_ne {c : Char} (hc : c ≠ '.') : fractionPart (c :: more) = (none, c :: more) := by
  unfold fractionPart
  split
  · rename_i heq; cases heq; contradiction
  · rfl

theorem exponentPart_digits (neg : Bool) (hds : Digits ds) (hm : NoDigitHead more) :
    exponentPart ('e' :: (if neg then '-' else '+') :: (ds ++ more)) =
      some ((if neg then -(digitsValue ds : Int) else digitsValue ds), more, 2 + ds.length) := by
  have hne : ds.isEmpty = false := by simpa using hds.1
  cases neg <;>
    simp [exponentPart, digitRun_append hds.2 hm, hne, Nat.add_comm]

theorem exponentPart_of_ends (h : Ends rest) : exponentPart rest = none := by
  cases rest with
  | nil => rfl
  | cons c r =>
    obtain ⟨-, -, he, hE⟩ := h
    simp [exponentPart, he, hE]

theorem digitsValue_eq_ofDigitChars (ds : List Char) : digitsValue ds = Nat.ofDigitChars 10 ds 0 := by
  unfold digitsValue Nat.ofDigitChars
  congr 1
  funext acc d
  rw [Nat.mul_comm]

@[simp] theorem digitsValue_toDigits (m : Nat) : digitsValue (Nat.toDigits 10 m) = m := by
  rw [digitsValue_eq_ofDigitChars, Nat.ofDigitChars_toDigits (by decide) (by decide)]

/-- The decimal digits of a positive number start with a nonzero digit. -/
theorem toDigits_head {m : Nat} (hm : 0 < m) :
    ∃ c ds, Nat.toDigits 10 m = c :: ds ∧ ('1' ≤ c ∧ c ≤ '9') := by
  induction m using Nat.strongRecOn with
  | ind m ih =>
    by_cases hlt : m < 10
    · have key : ∀ k, k < 10 → 0 < k → '1' ≤ Nat.digitChar k ∧ Nat.digitChar k ≤ '9' := by decide
      exact ⟨_, [], Nat.toDigits_of_lt_base hlt, key m hlt hm⟩
    · have hq : 0 < m / 10 := by omega
      obtain ⟨c, ds, hds, hc⟩ := ih (m / 10) (by omega) hq
      have hsplit := Nat.toDigits_append_toDigits (by decide : 1 < 10) hq (Nat.mod_lt m (by decide))
      rw [show 10 * (m / 10) + m % 10 = m by omega, hds, List.cons_append] at hsplit
      exact ⟨c, _, hsplit.symm, hc⟩

/-- Digits with no leading zero: a nonzero digit, then digits. -/
def Leading (ds : List Char) : Prop :=
  ∃ c rest, ds = c :: rest ∧ ('1' ≤ c ∧ c ≤ '9') ∧ ∀ d ∈ rest, d.isDigit = true

theorem Leading.digits (h : Leading ds) : Digits ds := by
  obtain ⟨c, rest, rfl, hc, hrest⟩ := h
  refine ⟨List.cons_ne_nil c rest, fun d hd => ?_⟩
  rcases List.mem_cons.1 hd with rfl | hd
  · simp only [Char.isDigit, Bool.and_eq_true, decide_eq_true_eq]
    exact ⟨Char.le_trans (by decide) hc.1, hc.2⟩
  · exact hrest d hd

theorem toDigits_leading {m : Nat} (hm : 0 < m) : Leading (Nat.toDigits 10 m) := by
  obtain ⟨c, ds, hds, hc⟩ := toDigits_head hm
  refine ⟨c, ds, hds, hc, fun d hd => ?_⟩
  have hmem : d ∈ Nat.toDigits 10 m := by
    rw [hds]
    exact List.mem_cons_of_mem c hd
  exact Nat.isDigit_of_mem_toDigits (by decide) (by decide) hmem

theorem toDigits_wellFormed (m : Nat) : Nat.toDigits 10 m = ['0'] ∨ Leading (Nat.toDigits 10 m) := by
  rcases Nat.eq_zero_or_pos m with rfl | hm
  · exact .inl (by decide)
  · exact .inr (toDigits_leading hm)

theorem toDigits_digits (m : Nat) : Digits (Nat.toDigits 10 m) := by
  rcases toDigits_wellFormed m with h | h
  · rw [h]
    exact digits_zero
  · exact h.digits

/-- A number as it is written: a sign, integer digits, and an optional fraction
and exponent, the exponent with its sign. -/
structure NumberText where
  negative : Bool
  whole : List Char
  fraction : Option (List Char)
  exponent : Option (Bool × List Char)

namespace NumberText

/-- The fraction as written, with its point. -/
def fractionChars (t : NumberText) : List Char :=
  match t.fraction with
  | some ds => '.' :: ds
  | none => []

/-- The exponent as written, with its mark and sign. -/
def exponentChars (t : NumberText) : List Char :=
  match t.exponent with
  | some (neg, ds) => 'e' :: (if neg then '-' else '+') :: ds
  | none => []

/-- The text after the sign. -/
def unsigned (t : NumberText) : List Char := t.whole ++ (t.fractionChars ++ t.exponentChars)

/-- The whole text. -/
def chars (t : NumberText) : List Char := (if t.negative then ['-'] else []) ++ t.unsigned

/-- The texts the number grammar takes whole: integer digits with no leading
zero, and at least one digit in the fraction and the exponent. -/
structure WellFormed (t : NumberText) : Prop where
  whole : t.whole = ['0'] ∨ Leading t.whole
  fraction : ∀ ds, t.fraction = some ds → Digits ds
  exponent : ∀ neg ds, t.exponent = some (neg, ds) → Digits ds

/-- A whole number with a sign. -/
def signed (neg : Bool) (n : Nat) : Int := if neg then -(n : Int) else n

/-- The value a number text stands for: an integer without fraction and
exponent, otherwise the double nearest to the decimal. -/
def value (t : NumberText) : Value :=
  if t.fraction.isNone ∧ t.exponent.isNone then .int (signed t.negative (digitsValue t.whole))
  else
    let fracDigits := t.fraction.getD []
    let e : Int := match t.exponent with
      | some (neg, ds) => signed neg (digitsValue ds)
      | none => 0
    .float (ofScientific t.negative (digitsValue (t.whole ++ fracDigits)) (e - fracDigits.length))

variable {t : NumberText}

theorem noDigitHead_exponentChars (hr : Ends rest) : NoDigitHead (t.exponentChars ++ rest) := by
  unfold exponentChars
  split
  · exact rfl
  · exact noDigitHead_of_ends hr

theorem noDigitHead_fractionChars (hr : Ends rest) :
    NoDigitHead (t.fractionChars ++ (t.exponentChars ++ rest)) := by
  unfold fractionChars
  split
  · exact rfl
  · exact noDigitHead_exponentChars hr

theorem exponentPart_exponentChars (ht : t.WellFormed) (hr : Ends rest) :
    exponentPart (t.exponentChars ++ rest) =
      t.exponent.map fun (neg, ds) => (signed neg (digitsValue ds), rest, 2 + ds.length) := by
  unfold exponentChars
  split
  · rename_i neg ds he
    rw [he, List.cons_append, List.cons_append,
      exponentPart_digits neg (ht.exponent neg ds he) (noDigitHead_of_ends hr)]
    rfl
  · rename_i he
    rw [he, List.nil_append, exponentPart_of_ends hr]
    rfl

theorem fractionPart_fractionChars (ht : t.WellFormed) (hr : Ends rest) :
    fractionPart (t.fractionChars ++ (t.exponentChars ++ rest)) = (t.fraction, t.exponentChars ++ rest) := by
  unfold fractionChars
  split
  · rename_i ds hf
    rw [hf, List.cons_append, fractionPart_digits (ht.fraction ds hf) (noDigitHead_exponentChars hr)]
  · rename_i hf
    rw [hf, List.nil_append]
    unfold exponentChars
    split
    · exact fractionPart_of_ne (by decide)
    · cases rest with
      | nil => rfl
      | cons c r => exact fractionPart_of_ne hr.2.1

theorem integerPart_unsigned (ht : t.WellFormed) (hr : Ends rest) :
    integerPart (t.unsigned ++ rest) = some (t.whole, t.fractionChars ++ (t.exponentChars ++ rest)) := by
  unfold unsigned
  rcases ht.whole with hw | ⟨c, ds, hw, hc, hds⟩
  · rw [hw, List.append_assoc, List.singleton_append, List.append_assoc]
    rfl
  · rw [hw, List.append_assoc, List.cons_append, List.append_assoc]
    exact integerPart_nonzero hc hds (noDigitHead_fractionChars hr)

/-- The first character of the integer digits is a digit. -/
theorem whole_head (ht : t.WellFormed) : ∃ c ds, t.whole = c :: ds ∧ c.isDigit = true := by
  rcases ht.whole with hw | ⟨c, ds, hw, hc, -⟩
  · exact ⟨'0', [], hw, rfl⟩
  · refine ⟨c, ds, hw, ?_⟩
    simp only [Char.isDigit, Bool.and_eq_true, decide_eq_true_eq]
    exact ⟨Char.le_trans (by decide) hc.1, hc.2⟩

theorem signPart_chars (ht : t.WellFormed) :
    signPart (t.chars ++ rest) = (t.negative, t.unsigned ++ rest, if t.negative then 1 else 0) := by
  unfold chars
  cases hn : t.negative with
  | true => rfl
  | false =>
    obtain ⟨c, ds, hw, hc⟩ := whole_head ht
    have hne : c ≠ '-' := by rintro rfl; exact absurd hc (by decide)
    simp only [unsigned, hw, List.cons_append]
    exact signPart_of_ne hne

/-- **A well-formed number text is read as its value**, when what follows
cannot continue it and an integer has no more digits than are read. -/
theorem number_chars (ht : t.WellFormed) (hr : Ends rest)
    (hlen : t.fraction = none → t.exponent = none → t.whole.length ≤ maxIntegerDigits) (pos : Nat) :
    ∃ p, number (t.chars ++ rest) pos = some (.ok (t.value, rest, p)) := by
  unfold number
  rw [signPart_chars ht]
  dsimp only
  rw [integerPart_unsigned ht hr]
  dsimp only
  rw [fractionPart_fractionChars ht hr]
  dsimp only
  rw [exponentPart_exponentChars ht hr]
  cases hf : t.fraction <;> cases he : t.exponent
  case none.none =>
    have hl := hlen hf he
    simp only [Option.map_none, Option.isNone_none, and_self, if_true, value, hf, he,
      show ¬maxIntegerDigits < t.whole.length by omega, if_false, signed, exponentChars,
      List.nil_append]
    exact ⟨_, rfl⟩
  all_goals
    simp only [Option.map_some, Option.map_none, Option.isNone_none, Option.isNone_some, value, hf,
      he, and_false, false_and, Bool.false_eq_true, if_false, exponentChars, List.nil_append]
    exact ⟨_, rfl⟩

end NumberText

/-- Text that starts with a digit, or with `-` and a digit, is read as a
number. -/
theorem value_eq_number {cs : List Char}
    (hcs : ∃ c r, cs = c :: r ∧ (c.isDigit = true ∨ c = '-' ∧ ∃ d r', r = d :: r' ∧ d.isDigit = true))
    (fuel pos : Nat) :
    value (fuel + 1) cs pos = match number cs pos with
      | some res => res
      | none => .error ⟨.expectingValue, pos⟩ := by
  obtain ⟨c, r, rfl, hc | ⟨rfl, d, r', rfl, hd⟩⟩ := hcs
  · rw [value]
    all_goals first | rfl | (intros; simp_all [Char.isDigit])
  · rw [value]
    all_goals first | rfl | (intros; simp_all [Char.isDigit])

namespace NumberText

variable {t : NumberText}

theorem chars_head (ht : t.WellFormed) (rest : List Char) :
    ∃ c r, t.chars ++ rest = c :: r ∧
      (c.isDigit = true ∨ c = '-' ∧ ∃ d r', r = d :: r' ∧ d.isDigit = true) := by
  obtain ⟨c, ds, hw, hc⟩ := whole_head ht
  unfold chars unsigned
  rw [hw]
  cases t.negative with
  | true => exact ⟨'-', _, rfl, .inr ⟨rfl, c, _, rfl, hc⟩⟩
  | false => exact ⟨c, _, rfl, .inl hc⟩

/-- **The value reader reads a well-formed number text as its value.** -/
theorem value_chars (ht : t.WellFormed) (hr : Ends rest)
    (hlen : t.fraction = none → t.exponent = none → t.whole.length ≤ maxIntegerDigits)
    (fuel pos : Nat) :
    ∃ p, Reader.value (fuel + 1) (t.chars ++ rest) pos = .ok (t.value, rest, p) := by
  obtain ⟨p, hp⟩ := number_chars ht hr hlen pos
  exact ⟨p, by rw [value_eq_number (chars_head ht rest), hp]⟩

/-- The text of an integer. -/
def ofInt (n : Int) : NumberText := ⟨decide (n < 0), Nat.toDigits 10 n.natAbs, none, none⟩

theorem ofInt_chars (n : Int) : (ofInt n).chars = (toString n).toList := by
  cases n with
  | ofNat m =>
    have h : toString (Int.ofNat m) = String.ofList (Nat.toDigits 10 m) := rfl
    rw [h, String.toList_ofList]
    simp [chars, unsigned, ofInt, fractionChars, exponentChars]
  | negSucc m =>
    have h : toString (Int.negSucc m) = "-" ++ String.ofList (Nat.toDigits 10 (m + 1)) := rfl
    rw [h, String.toList_append, String.toList_ofList]
    simp [chars, unsigned, ofInt, fractionChars, exponentChars]

theorem ofInt_value (n : Int) : (ofInt n).value = .int n := by
  simp only [value, ofInt, Option.isNone_none, and_self, if_true, signed, digitsValue_toDigits]
  congr 1
  by_cases hn : n < 0
  · rw [if_pos (decide_eq_true hn)]
    omega
  · rw [if_neg (fun h => hn (of_decide_eq_true h))]
    omega

theorem ofInt_wellFormed (n : Int) : (ofInt n).WellFormed where
  whole := toDigits_wellFormed n.natAbs
  fraction := by simp [ofInt]
  exponent := by simp [ofInt]

end NumberText

/-- **An integer is read back as itself**, when it has no more digits than are
read and what follows cannot continue it. -/
theorem value_int {n : Int} (hn : (toString n.natAbs).length ≤ maxIntegerDigits) (hr : Ends rest)
    (fuel pos : Nat) :
    ∃ p, value (fuel + 1) ((toString n).toList ++ rest) pos = .ok (.int n, rest, p) := by
  have hlen : (NumberText.ofInt n).whole.length ≤ maxIntegerDigits := by
    simpa [NumberText.ofInt, ← String.length_toList] using hn
  rw [← NumberText.ofInt_chars, ← NumberText.ofInt_value]
  exact NumberText.value_chars (NumberText.ofInt_wellFormed n) hr (fun _ _ => hlen) fuel pos

end Reader

end Json

end NodeFlow
