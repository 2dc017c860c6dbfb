import Mathlib
import NodeFlow.Json.Reader
import NodeFlow.Json.Writer
/-!
# Reading written strings back

A string is written as the escapes of its code points (`escapeCode`) between
double quotes. Reading that text gives back `Text.canonical s`: the characters
that hold the code points of `s`, each in the form `Text.ofCode` gives it.
The main statements read a quoted text followed by anything, as the body of a
string (`stringBody_quote`) and as a value (`value_quote`, for any escaping
whose reading is known: `QuotesAs`).

Every code point of a text is a Unicode scalar value or a surrogate half
(`Text.mem_codePoints`), and the escape of such a code point is read in one
step of the string reader (`stringBody_escapeCode`): a one-letter escape, a
`\u00XX` escape for the other control characters, or the holding characters as
they are.
-/

namespace NodeFlow

namespace Text

/-- The text made of the characters that hold each code point of `s`. -/
def canonical (s : String) : String := String.ofList ((codePoints s.toList).flatMap ofCode)

/-- The code point of an unmarked character is a scalar value or a half. -/
theorem codeOf_scalar (c : Char) : (codeOf c).isValidChar ∨ isSurrogateCode (codeOf c) = true := by
  unfold codeOf surrogate?
  split
  · rename_i h
    right
    rw [Bool.and_eq_true, decide_eq_true_eq, decide_eq_true_eq] at h
    unfold isSurrogateCode
    rw [Bool.and_eq_true, decide_eq_true_eq, decide_eq_true_eq]
    unfold standInBase surrogateCount surrogateBase at *
    simp only [Option.getD_some]
    omega
  · exact .inl c.valid

theorem mem_codePoints {cs : List Char} {n : Nat} (h : n ∈ codePoints cs) :
    n.isValidChar ∨ isSurrogateCode n = true := by
  fun_induction codePoints cs with
  | case1 => simp at h
  | case2 c =>
    rw [List.mem_singleton.1 h]
    exact codeOf_scalar c
  | case3 c d rest _ ih =>
    rcases List.mem_cons.1 h with rfl | h
    · exact .inl d.valid
    · exact ih h
  | case4 c d rest _ ih =>
    rcases List.mem_cons.1 h with rfl | h
    · exact codeOf_scalar c
    · exact ih h

theorem toNat_ofNat_of_valid {n : Nat} (h : n.isValidChar) : (Char.ofNat n).toNat = n := by
  unfold Char.ofNat
  rw [dif_pos h]
  rfl

/-! ### Names in ASCII

A text of ASCII characters is its own canonical form and the canonical form
of no other text, so names written in ASCII are told apart after reading.
-/

/-- The characters of a code point are all ASCII only when the code point is,
held by its own character. -/
theorem ofCode_ascii {n : Nat} (hn : n.isValidChar ∨ isSurrogateCode n = true)
    (h : ∀ c ∈ ofCode n, c.toNat < 0x80) : n < 0x80 ∧ ofCode n = [Char.ofNat n] := by
  unfold ofCode at h ⊢
  split at h
  · rename_i hs
    have hc := h _ List.mem_cons_self
    unfold isSurrogateCode surrogateBase surrogateCount at hs
    rw [Bool.and_eq_true, decide_eq_true_eq, decide_eq_true_eq] at hs
    unfold ofSurrogate standInBase surrogateBase at hc
    rw [toNat_ofNat_of_valid (by unfold Nat.isValidChar; omega)] at hc
    omega
  · rename_i hs
    have hv : n.isValidChar := by simpa [hs] using hn
    rw [if_neg hs]
    dsimp only at h ⊢
    split at h
    · exact absurd (h _ List.mem_cons_self) (by decide)
    · rename_i hm
      have hc := h _ List.mem_cons_self
      rw [toNat_ofNat_of_valid hv] at hc
      exact ⟨hc, by rw [if_neg hm]⟩

theorem ofNat_codeOf {c : Char} (h : codeOf c < 0x80) : Char.ofNat (codeOf c) = c := by
  unfold codeOf surrogate? at h ⊢
  split at h
  · unfold surrogateBase at h
    simp only [Option.getD_some] at h
    omega
  · rename_i hs
    rw [if_neg hs, Option.getD_none]
    exact Char.ofNat_toNat c

theorem not_ascii_of_needsMark {c : Char} (h : needsMark c = true) : ¬c.toNat < 0x80 := by
  unfold needsMark at h
  rw [Bool.and_eq_true, decide_eq_true_eq] at h
  have hmark : holdMark.toNat = 0x10D7FF := by decide
  omega

theorem codeOf_ascii {c : Char} (h : c.toNat < 0x80) : codeOf c = c.toNat := by
  unfold codeOf surrogate? standInBase
  rw [if_neg (by simp only [Bool.and_eq_true, decide_eq_true_eq]; omega), Option.getD_none]

theorem ofCode_codeOf_ascii {c : Char} (h : c.toNat < 0x80) : ofCode (codeOf c) = [c] := by
  have hcode := codeOf_ascii h
  unfold ofCode
  rw [if_neg (by unfold isSurrogateCode surrogateBase; simp only [hcode, Bool.and_eq_true,
    decide_eq_true_eq]; omega), hcode, Char.ofNat_toNat]
  dsimp only
  rw [if_neg (fun hm => not_ascii_of_needsMark hm h)]

/-- **ASCII characters hold themselves.** -/
theorem flatMap_ofCode_ascii {cs : List Char} (h : ∀ c ∈ cs, c.toNat < 0x80) :
    (codePoints cs).flatMap ofCode = cs := by
  fun_induction codePoints cs with
  | case1 => rfl
  | case2 c => simp [ofCode_codeOf_ascii (h c List.mem_cons_self)]
  | case3 c d rest hmark _ =>
    rw [Bool.and_eq_true] at hmark
    exact absurd (h d (by simp)) (not_ascii_of_needsMark hmark.2)
  | case4 c d rest _ ih =>
    rw [List.flatMap_cons, ofCode_codeOf_ascii (h c List.mem_cons_self),
      ih (fun x hx => h x (List.mem_cons_of_mem c hx))]
    rfl

/-- **Only ASCII characters hold ASCII characters**: characters whose code
points are held by ASCII characters are those characters. -/
theorem eq_of_flatMap_ofCode_ascii (cs : List Char) {w : List Char} (hw : ∀ c ∈ w, c.toNat < 0x80)
    (h : (codePoints cs).flatMap ofCode = w) : cs = w := by
  fun_induction codePoints cs generalizing w with
  | case1 => exact h
  | case2 c =>
    rw [List.flatMap_cons, List.flatMap_nil, List.append_nil] at h
    subst h
    obtain ⟨hlt, heq⟩ := ofCode_ascii (codeOf_scalar c) hw
    rw [heq, ofNat_codeOf hlt]
  | case3 c d rest hmark _ =>
    rw [List.flatMap_cons] at h
    subst h
    rw [Bool.and_eq_true] at hmark
    have hd := (ofCode_ascii (.inl d.valid) (fun x hx => hw x (List.mem_append_left _ hx))).1
    exact absurd hd (not_ascii_of_needsMark hmark.2)
  | case4 c d rest _ ih =>
    rw [List.flatMap_cons] at h
    subst h
    obtain ⟨hlt, heq⟩ := ofCode_ascii (codeOf_scalar c) (fun x hx => hw x (List.mem_append_left _ hx))
    rw [heq, ofNat_codeOf hlt, List.singleton_append]
    exact congrArg (c :: ·) (ih (fun x hx => hw x (List.mem_append_right _ hx)) rfl)

theorem canonical_ascii {s : String} (hs : ∀ c ∈ s.toList, c.toNat < 0x80) : canonical s = s := by
  unfold canonical
  rw [flatMap_ofCode_ascii hs, String.ofList_toList]

theorem eq_of_canonical_ascii {s w : String} (hw : ∀ c ∈ w.toList, c.toNat < 0x80)
    (h : canonical s = w) : s = w :=
  String.ext (eq_of_flatMap_ofCode_ascii s.toList hw (by rw [← h, canonical, String.toList_ofList]))

end Text

namespace Json

namespace Reader

variable {start pos : Nat} {acc more rest : List Char}

/-- A character that the string reader copies as it is. -/
def Plain (c : Char) : Prop := c ≠ '"' ∧ c ≠ '\\' ∧ 0x1f < c.toNat

theorem stringBody_plain {c : Char} (hc : Plain c) :
    stringBody start (c :: more) pos acc = stringBody start more (pos + 1) (c :: acc) := by
  obtain ⟨h1, h2, h3⟩ := hc
  rw [stringBody.eq_def]
  split
  · contradiction
  · rename_i heq; cases heq; contradiction
  · rename_i heq; cases heq; contradiction
  · rename_i heq; cases heq
    rw [if_neg (by omega)]

theorem stringBody_plains {cs : List Char} (hcs : ∀ c ∈ cs, Plain c) :
    stringBody start (cs ++ more) pos acc =
      stringBody start more (pos + cs.length) (cs.reverse ++ acc) := by
  induction cs generalizing pos acc with
  | nil => rfl
  | cons c cs ih =>
    rw [List.cons_append, stringBody_plain (hcs c (by simp)),
      ih (fun c' h => hcs c' (List.mem_cons_of_mem c h))]
    simp [Nat.add_assoc, Nat.add_comm 1]

theorem stringBody_simpleEscape {e ch : Char} (he : simpleEscape e = some ch) (hu : e ≠ 'u') :
    stringBody start ('\\' :: e :: more) pos acc = stringBody start more (pos + 2) (ch :: acc) := by
  rw [stringBody.eq_def]
  simp only
  split
  · rename_i heq; cases heq
  · rename_i heq; cases heq; contradiction
  · rename_i heq; cases heq; contradiction
  · rename_i heq; cases heq
    rw [he]

theorem stringBody_unicodeEscape {a b c d : Char} {k : Nat} (hk : hex4 a b c d = some k)
    (hlow : ¬(0xD800 ≤ k ∧ k < 0xDC00)) (hmore : more ≠ []) :
    stringBody start ('\\' :: 'u' :: a :: b :: c :: d :: more) pos acc =
      stringBody start more (pos + 6) (push k acc) := by
  rw [stringBody.eq_def]
  simp only
  have : more.isEmpty = false := by cases more <;> simp_all
  rw [if_neg (by simp [this]), hk]
  simp only [hlow, if_false]

/-- The code point a character stands for when it is the character of a
valid code point. -/
theorem eq_toNat_of_ofNat_eq {n : Nat} {c : Char} (h : Char.ofNat n = c) (hc : c.toNat ≠ 0) :
    n = c.toNat := by
  unfold Char.ofNat at h
  split at h
  · subst h; rfl
  · subst h; exact absurd rfl hc

/-- The four hexadecimal digits written for a control character. -/
theorem hex4_toList_of_lt {n : Nat} (hn : n < 32) :
    (Json.hex4 n).toList = ['0', '0', Nat.digitChar (n / 16), Nat.digitChar (n % 16)] := by
  simp only [Json.hex4, String.toList_ofList]
  revert n; decide

theorem hexValue_digitChar {k : Nat} (hk : k < 16) : hexValue (Nat.digitChar k) = some k := by
  revert k; decide

/-- The characters holding a code point past the control characters, other
than the quote and the backslash, are copied. -/
theorem plain_of_mem_ofCode {n : Nat} (hn : n.isValidChar ∨ Text.isSurrogateCode n = true)
    (hlow : 0x20 ≤ n) (hq : Char.ofNat n ≠ '"') (hb : Char.ofNat n ≠ '\\') :
    ∀ c ∈ Text.ofCode n, Plain c := by
  have plain_of_toNat : ∀ c : Char, 0x5c < c.toNat → Plain c := by
    intro c hc
    refine ⟨fun h => ?_, fun h => ?_, by omega⟩ <;> (subst h; revert hc; decide)
  unfold Text.ofCode
  split
  · rename_i hs
    intro c hc
    rw [List.mem_singleton.1 hc]
    apply plain_of_toNat
    unfold Text.isSurrogateCode Text.surrogateBase Text.surrogateCount at hs
    rw [Bool.and_eq_true, decide_eq_true_eq, decide_eq_true_eq] at hs
    unfold Text.ofSurrogate Text.standInBase Text.surrogateBase
    rw [Text.toNat_ofNat_of_valid (by unfold Nat.isValidChar; omega)]
    omega
  · rename_i hs
    have hv : n.isValidChar := by simpa [hs] using hn
    have hc : Plain (Char.ofNat n) := ⟨hq, hb, by rw [Text.toNat_ofNat_of_valid hv]; omega⟩
    dsimp only
    split
    · intro c hc'
      rcases List.mem_cons.1 hc' with rfl | hc'
      · exact plain_of_toNat _ (by decide)
      · rw [List.mem_singleton.1 hc']; exact hc
    · intro c hc'
      rw [List.mem_singleton.1 hc']; exact hc

theorem stringBody_escapeOf {n : Nat} {e ch : Char} {t : String}
    (ht : t.toList = ['\\', e]) (hcode : Text.ofCode n = [ch]) (he : simpleEscape e = some ch)
    (hu : e ≠ 'u') :
    ∃ p, stringBody start (t.toList ++ more) pos acc =
      stringBody start more p ((Text.ofCode n).reverse ++ acc) := by
  rw [ht, hcode]
  exact ⟨pos + 2, stringBody_simpleEscape he hu⟩

/-- **One code point's escape is read in one step.** -/
theorem stringBody_escapeCode {n : Nat} (hn : n.isValidChar ∨ Text.isSurrogateCode n = true)
    (hmore : more ≠ []) :
    ∃ p, stringBody start ((escapeCode false n).toList ++ more) pos acc =
      stringBody start more p ((Text.ofCode n).reverse ++ acc) := by
  unfold escapeCode
  split
  -- the one-letter escapes: `n` is the code of the matched character
  all_goals try
    (rename_i h
     obtain rfl := eq_toNat_of_ofNat_eq h (by decide)
     exact stringBody_escapeOf rfl (by decide) rfl (by decide))
  rename_i hq hb _ _ _ _ _
  by_cases hs : Text.isSurrogateCode n = true
  · simp only [hs, if_true, Bool.false_eq_true, if_false, String.toList_ofList]
    have hlow : 0x20 ≤ n := by
      unfold Text.isSurrogateCode Text.surrogateBase at hs
      rw [Bool.and_eq_true, decide_eq_true_eq, decide_eq_true_eq] at hs
      omega
    rw [stringBody_plains (plain_of_mem_ofCode hn hlow hq hb)]
    exact ⟨_, rfl⟩
  by_cases hc : n < 0x20
  · -- another control character: a `\u00XX` escape
    simp only [hs, hc, if_true, Bool.false_eq_true, if_false, String.toList_append,
      hex4_toList_of_lt hc]
    have hk : hex4 '0' '0' (Nat.digitChar (n / 16)) (Nat.digitChar (n % 16)) = some n := by
      unfold hex4
      rw [hexValue_digitChar (by omega), hexValue_digitChar (by omega),
        show hexValue '0' = some 0 by decide]
      simp only [Option.bind_eq_bind, Option.bind_some, Option.pure_def, Option.some.injEq]
      omega
    exact ⟨pos + 6, stringBody_unicodeEscape hk (by omega) hmore⟩
  · simp only [hs, hc, if_false, Bool.false_eq_true, false_and, String.toList_ofList]
    rw [stringBody_plains (plain_of_mem_ofCode hn (by omega) hq hb)]
    exact ⟨_, rfl⟩

/-- The escapes of code points, then the closing quote, are read as the
characters holding those code points. -/
theorem stringBody_escapes {ns : List Nat}
    (hns : ∀ n ∈ ns, n.isValidChar ∨ Text.isSurrogateCode n = true) :
    ∃ p, stringBody start ((ns.map (escapeCode false)).flatMap String.toList ++ '"' :: rest) pos acc =
      .ok (String.ofList (acc.reverse ++ ns.flatMap Text.ofCode), rest, p) := by
  induction ns generalizing pos acc with
  | nil =>
    refine ⟨pos + 1, ?_⟩
    simp only [List.map_nil, List.flatMap_nil, List.nil_append, List.append_nil]
    rw [stringBody.eq_def]
    rfl
  | cons n ns ih =>
    have hmore : (ns.map (escapeCode false)).flatMap String.toList ++ '"' :: rest ≠ [] := by simp
    obtain ⟨p, hp⟩ : ∃ p, stringBody start ((escapeCode false n).toList ++
        ((ns.map (escapeCode false)).flatMap String.toList ++ '"' :: rest)) pos acc =
        stringBody start _ p ((Text.ofCode n).reverse ++ acc) :=
      stringBody_escapeCode (hns n (List.mem_cons_self ..)) hmore
    obtain ⟨p', hp'⟩ : ∃ p', stringBody start
        ((ns.map (escapeCode false)).flatMap String.toList ++ '"' :: rest) p
        ((Text.ofCode n).reverse ++ acc) =
        .ok (String.ofList (((Text.ofCode n).reverse ++ acc).reverse ++ ns.flatMap Text.ofCode),
          rest, p') :=
      ih (fun m hm => hns m (List.mem_cons_of_mem n hm))
    refine ⟨p', ?_⟩
    simp only [List.map_cons, List.flatMap_cons, List.append_assoc]
    rw [hp, hp']
    simp

/-- **A quoted text is read back as its canonical text**, whatever follows the
closing quote. -/
theorem stringBody_quote (s : String) (start pos : Nat) (rest : List Char) :
    ∃ p, stringBody start
        ((String.join ((Text.codePoints s.toList).map (escapeCode false))).toList ++ '"' :: rest)
        pos [] = .ok (Text.canonical s, rest, p) := by
  rw [String.toList_join]
  exact stringBody_escapes fun n hn => Text.mem_codePoints hn

theorem quote_toList (asciiOnly : Bool) (s : String) :
    (quote asciiOnly s).toList =
      '"' :: ((String.join ((Text.codePoints s.toList).map (escapeCode asciiOnly))).toList ++ ['"']) := by
  simp only [quote, String.toList_append]
  rfl

/-- Quoted texts written with the escapes `asciiOnly` chooses are read back as
`text s`, whatever follows the closing quote. -/
def QuotesAs (asciiOnly : Bool) (text : String → String) : Prop :=
  ∀ s start pos rest, ∃ p, stringBody start
    ((String.join ((Text.codePoints s.toList).map (escapeCode asciiOnly))).toList ++ '"' :: rest) pos [] =
      .ok (text s, rest, p)

/-- Texts written as they are read back in canonical form. -/
theorem quotesAs_canonical : QuotesAs false Text.canonical := stringBody_quote

theorem value_quote {asciiOnly : Bool} {text : String → String} (hq : QuotesAs asciiOnly text)
    (s : String) (fuel pos : Nat) (rest : List Char) :
    ∃ p, value (fuel + 1) ((quote asciiOnly s).toList ++ rest) pos = .ok (.str (text s), rest, p) := by
  obtain ⟨p, hp⟩ := hq s pos (pos + 1) rest
  refine ⟨p, ?_⟩
  rw [quote_toList, List.cons_append, List.append_assoc, List.singleton_append, value, hp]
  rfl

end Reader

end Json

end NodeFlow
