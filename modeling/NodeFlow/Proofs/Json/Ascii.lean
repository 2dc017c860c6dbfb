import NodeFlow.Proofs.Json.Strings
/-!
# Reading back texts written in ASCII

Where only ASCII may be written, a code point is written as a one-letter
escape, as the characters holding it when it is printable ASCII, as `\uXXXX`
for one UTF-16 code unit, or as the escapes of the two halves of a pair past
the basic plane (`AsciiEscape`, `asciiEscape_escapeCode`). The reader joins an
escaped high half with an escaped low half right after it, so a text comes
back with the lone halves that stood side by side joined (`Text.rejoined`,
`quotesAs_rejoined`); a text with no such neighbours comes back in canonical
form (`Text.rejoined_of_splitPair`).
-/

namespace NodeFlow

namespace Text

/-- Whether a code point is the high half of a surrogate pair. -/
def isHighHalf (n : Nat) : Bool := 0xD800 ≤ n && n < 0xDC00

/-- Whether a code point is the low half of a surrogate pair. -/
def isLowHalf (n : Nat) : Bool := 0xDC00 ≤ n && n < 0xE000

/-- The code point a high half and a low half stand for together. -/
def pairCode (hi lo : Nat) : Nat := 0x10000 + (hi - 0xD800) * 0x400 + (lo - 0xDC00)

/-- Code points with each high half that stands right before a low half joined
with it into the code point the pair stands for. -/
def joinHalves : List Nat → List Nat
  | [] => []
  | [n] => [n]
  | h :: l :: rest =>
    if isHighHalf h && isLowHalf l then pairCode h l :: joinHalves rest else h :: joinHalves (l :: rest)

/-- The text read back from a text written in ASCII: its code points with the
halves that stand side by side joined, each held as `ofCode` holds it. -/
def rejoined (s : String) : String := String.ofList ((joinHalves (codePoints s.toList)).flatMap ofCode)

/-- Whether a high half stands right before a low half. -/
def splitPair : List Nat → Bool
  | h :: l :: rest => (isHighHalf h && isLowHalf l) || splitPair (l :: rest)
  | _ => false

theorem joinHalves_of_splitPair : ∀ ns : List Nat, splitPair ns = false → joinHalves ns = ns
  | [], _ => rfl
  | [_], _ => rfl
  | h :: l :: rest, hs => by
    simp only [splitPair, Bool.or_eq_false_iff] at hs
    rw [joinHalves, if_neg (by simp [hs.1]), joinHalves_of_splitPair (l :: rest) hs.2]

/-- **A text with no high half right before a low half is read back from ASCII
in canonical form.** -/
theorem rejoined_of_splitPair {s : String} (hs : splitPair (codePoints s.toList) = false) :
    rejoined s = canonical s := by
  rw [rejoined, canonical, joinHalves_of_splitPair _ hs]

end Text

namespace Json

/-- Four hexadecimal digits, the first ones zero for a small number. -/
theorem hex4_toList {n : Nat} (hn : n < 0x10000) :
    (hex4 n).toList = [Nat.digitChar (n / 0x1000), Nat.digitChar (n / 0x100 % 16),
      Nat.digitChar (n / 16 % 16), Nat.digitChar (n % 16)] := by
  unfold hex4
  simp only [String.toList_ofList]
  have h0 : Nat.digitChar 0 = '0' := rfl
  -- the digits of `n`, one to four of them
  rcases Nat.lt_or_ge n 16 with h1 | h1
  · rw [Nat.toDigits_of_lt_base h1]
    simp [Nat.div_eq_of_lt (show n < 0x1000 by omega), Nat.div_eq_of_lt (show n < 0x100 by omega),
      Nat.div_eq_of_lt h1, Nat.mod_eq_of_lt h1, h0]
  rcases Nat.lt_or_ge n 256 with h2 | h2
  · rw [Nat.toDigits_of_base_le (by decide) h1, Nat.toDigits_of_lt_base (by omega : n / 16 < 16)]
    simp [Nat.div_eq_of_lt (show n < 0x1000 by omega), Nat.div_eq_of_lt (show n < 0x100 by omega), h0,
      Nat.mod_eq_of_lt (show n / 16 < 16 by omega)]
  rcases Nat.lt_or_ge n 4096 with h3 | h3
  · rw [Nat.toDigits_of_base_le (by decide) h1, Nat.toDigits_of_base_le (by decide) (by omega : 16 ≤ n / 16),
      Nat.toDigits_of_lt_base (by omega : n / 16 / 16 < 16)]
    simp [Nat.div_eq_of_lt (show n < 0x1000 by omega), h0, Nat.div_div_eq_div_mul,
      Nat.mod_eq_of_lt (show n / 256 < 16 by omega)]
  · rw [Nat.toDigits_of_base_le (by decide) h1, Nat.toDigits_of_base_le (by decide) (by omega : 16 ≤ n / 16),
      Nat.toDigits_of_base_le (by decide) (by omega : 16 ≤ n / 16 / 16),
      Nat.toDigits_of_lt_base (by omega : n / 16 / 16 / 16 < 16)]
    simp [Nat.div_div_eq_div_mul]

namespace Reader

/-- The four hexadecimal digits written for a code unit read back as it. -/
theorem hex4_read {n : Nat} (hn : n < 0x10000) :
    ∃ a b c d, (Json.hex4 n).toList = [a, b, c, d] ∧ hex4 a b c d = some n := by
  refine ⟨_, _, _, _, hex4_toList hn, ?_⟩
  unfold hex4
  rw [hexValue_digitChar (by omega), hexValue_digitChar (by omega), hexValue_digitChar (by omega),
    hexValue_digitChar (by omega)]
  simp only [Option.bind_eq_bind, Option.bind_some, Option.pure_def, Option.some.injEq]
  omega

variable {start pos : Nat} {acc more : List Char}

/-- Text that does not go on with the escape of a low half followed by more
text, the one thing that joins with the escape of a high half before it. -/
def NoLowAfter (more : List Char) : Prop :=
  ∀ w x y z tl, more = '\\' :: 'u' :: w :: x :: y :: z :: tl → tl ≠ [] →
    ∃ lo, hex4 w x y z = some lo ∧ ¬(0xDC00 ≤ lo ∧ lo < 0xE000)

/-- The escape of a high half with no low half after it is read alone. -/
theorem stringBody_high_alone {a b c d : Char} {k : Nat} (hk : hex4 a b c d = some k)
    (hhigh : 0xD800 ≤ k ∧ k < 0xDC00) (hmore : more ≠ []) (hnext : NoLowAfter more) :
    stringBody start ('\\' :: 'u' :: a :: b :: c :: d :: more) pos acc =
      stringBody start more (pos + 6) (push k acc) := by
  rw [stringBody.eq_def]
  simp only
  have hne : more.isEmpty = false := by cases more <;> simp_all
  rw [if_neg (by simp [hne]), hk]
  simp only [hhigh, and_self, if_true]
  split
  · -- the next escape, of a code unit that is no low half
    rename_i w x y z tl
    split
    · rfl
    · rename_i htl
      obtain ⟨lo, hlo, hnotlow⟩ := hnext w x y z tl rfl (by simpa using htl)
      rw [hlo]
      simp only [hnotlow, if_false]
  · rfl

/-- The escapes of a high half and a low half, with more text after them, are
read as the code point the pair stands for. -/
theorem stringBody_pair {a b c d w x y z : Char} {hi lo : Nat} (hh : hex4 a b c d = some hi)
    (hl : hex4 w x y z = some lo) (hhigh : 0xD800 ≤ hi ∧ hi < 0xDC00) (hlow : 0xDC00 ≤ lo ∧ lo < 0xE000)
    (hmore : more ≠ []) :
    stringBody start ('\\' :: 'u' :: a :: b :: c :: d :: '\\' :: 'u' :: w :: x :: y :: z :: more) pos acc =
      stringBody start more (pos + 12) (push (0x10000 + (hi - 0xD800) * 0x400 + (lo - 0xDC00)) acc) := by
  rw [stringBody.eq_def]
  simp only
  have hne : more.isEmpty = false := by cases more <;> simp_all
  rw [if_neg (by simp), hh]
  simp only [hhigh, and_self, if_true, hne, Bool.false_eq_true, if_false, hl, hlow]

/-- How a code point is written when only ASCII may be written: a one-letter
escape, the escape of one UTF-16 code unit, the escapes of the two halves of a
pair, or the characters that hold it, none of which the string reader stops at. -/
inductive AsciiEscape (n : Nat) : List Char → Prop
  | letter (e ch : Char) : simpleEscape e = some ch → e ≠ 'u' → Text.ofCode n = [ch] →
      AsciiEscape n ['\\', e]
  | unit : n < 0x10000 → AsciiEscape n ('\\' :: 'u' :: (Json.hex4 n).toList)
  | pair (hi lo : Nat) : 0xD800 ≤ hi ∧ hi < 0xDC00 → 0xDC00 ≤ lo ∧ lo < 0xE000 → Text.pairCode hi lo = n →
      AsciiEscape n ('\\' :: 'u' :: ((Json.hex4 hi).toList ++ '\\' :: 'u' :: (Json.hex4 lo).toList))
  | plain : (∀ c ∈ Text.ofCode n, Plain c) → AsciiEscape n (Text.ofCode n)

theorem unicode_toList (k : Nat) : ("\\u" ++ Json.hex4 k).toList = '\\' :: 'u' :: (Json.hex4 k).toList := by
  rw [String.toList_append]
  rfl

/-- The code points written with a one-letter escape. -/
def letterCodes : List Nat := [34, 92, 10, 13, 9, 8, 12]

/-- Past the one-letter escapes, a code point is written by its kind. -/
theorem escapeCode_of_not_letter {a : Bool} {n : Nat} (hl : n ∉ letterCodes) :
    escapeCode a n =
      if Text.isSurrogateCode n then
        if a then "\\u" ++ Json.hex4 n else String.ofList (Text.ofCode n)
      else if n < 0x20 then "\\u" ++ Json.hex4 n
      else if a ∧ 0x7e < n then
        if n < 0x10000 then "\\u" ++ Json.hex4 n
        else "\\u" ++ Json.hex4 (0xD800 + (n - 0x10000) / 0x400) ++ "\\u" ++
          Json.hex4 (0xDC00 + (n - 0x10000) % 0x400)
      else String.ofList (Text.ofCode n) := by
  unfold escapeCode
  split
  all_goals try
    (rename_i h
     obtain rfl := eq_toNat_of_ofNat_eq h (by decide)
     exact absurd (by decide) hl)
  rfl

/-- A half, a control character or a character of the basic plane beyond ASCII
is written as the escape of its one code unit. -/
theorem escapeCode_unit {n : Nat} (hl : n ∉ letterCodes)
    (h : Text.isSurrogateCode n = true ∨ n < 0x20 ∨ (0x7e < n ∧ n < 0x10000)) :
    (escapeCode true n).toList = '\\' :: 'u' :: (Json.hex4 n).toList := by
  rw [escapeCode_of_not_letter hl]
  by_cases hs : Text.isSurrogateCode n = true
  · rw [if_pos hs, if_pos rfl, unicode_toList]
  by_cases hc : n < 0x20
  · rw [if_neg hs, if_pos hc, unicode_toList]
  have hbmp : 0x7e < n ∧ n < 0x10000 := by simpa [hs, hc] using h
  rw [if_neg hs, if_neg hc, if_pos ⟨rfl, hbmp.1⟩, if_pos hbmp.2, unicode_toList]

/-- A character past the basic plane is written as the escapes of its two
halves. -/
theorem escapeCode_astral {n : Nat} (hl : n ∉ letterCodes) (hs : ¬Text.isSurrogateCode n = true)
    (hbmp : ¬n < 0x10000) :
    (escapeCode true n).toList = '\\' :: 'u' :: ((Json.hex4 (0xD800 + (n - 0x10000) / 0x400)).toList ++
        '\\' :: 'u' :: (Json.hex4 (0xDC00 + (n - 0x10000) % 0x400)).toList) := by
  rw [escapeCode_of_not_letter hl, if_neg hs, if_neg (by omega), if_pos ⟨rfl, by omega⟩, if_neg hbmp,
    String.toList_append, String.toList_append, String.toList_append, List.append_assoc,
    List.append_assoc]
  rfl

/-- A printable ASCII character is written as it is. -/
theorem escapeCode_printable {n : Nat} (hl : n ∉ letterCodes) (hs : ¬Text.isSurrogateCode n = true)
    (hc : ¬n < 0x20) (hwide : ¬0x7e < n) : (escapeCode true n).toList = Text.ofCode n := by
  rw [escapeCode_of_not_letter hl, if_neg hs, if_neg hc, if_neg (fun h => hwide h.2), String.toList_ofList]

/-- **The ASCII escape of every code point**, by kind. -/
theorem asciiEscape_escapeCode {n : Nat} (hn : n.isValidChar ∨ Text.isSurrogateCode n = true) :
    AsciiEscape n (escapeCode true n).toList := by
  by_cases hl : n ∈ letterCodes
  · -- the one-letter escapes, one code point each
    simp only [letterCodes, List.mem_cons, List.not_mem_nil, or_false] at hl
    rcases hl with rfl | rfl | rfl | rfl | rfl | rfl | rfl <;>
      exact .letter _ _ rfl (by decide) (by decide)
  by_cases hunit : Text.isSurrogateCode n = true ∨ n < 0x20 ∨ (0x7e < n ∧ n < 0x10000)
  · rw [escapeCode_unit hl hunit]
    refine .unit ?_
    rcases hunit with hs | hc | hbmp
    · unfold Text.isSurrogateCode Text.surrogateBase Text.surrogateCount at hs
      simp only [Bool.and_eq_true, decide_eq_true_eq] at hs
      omega
    · omega
    · exact hbmp.2
  simp only [not_or, not_and, Nat.not_lt] at hunit
  obtain ⟨hs, hc, hwide⟩ := hunit
  have hv : n.isValidChar := by simpa [hs] using hn
  by_cases hbig : 0x10000 ≤ n
  · rw [escapeCode_astral hl hs (by omega)]
    unfold Nat.isValidChar at hv
    exact .pair _ _ (by omega) (by omega) (by unfold Text.pairCode; omega)
  · rw [escapeCode_printable hl hs (by omega) (fun h => by have := hwide h; omega)]
    refine .plain (plain_of_mem_ofCode hn (by omega) ?_ ?_)
    · intro h
      have := eq_toNat_of_ofNat_eq h (by decide)
      simp [letterCodes, this] at hl
    · intro h
      have := eq_toNat_of_ofNat_eq h (by decide)
      simp [letterCodes, this] at hl

theorem ofCode_ne_nil (n : Nat) : Text.ofCode n ≠ [] := by
  unfold Text.ofCode
  split
  · exact List.cons_ne_nil _ _
  · dsimp only
    split <;> exact List.cons_ne_nil _ _

/-- A closing quote is no escape of a low half. -/
theorem noLowAfter_quote (rest : List Char) : NoLowAfter ('"' :: rest) := by
  intro w x y z tl h
  exact absurd (List.cons.inj h).1 (by decide)

/-- **The escape of a code point that is no low half is no escape of a low
half**, whatever follows it. -/
theorem noLowAfter_escape {m : Nat} {cs : List Char} (he : AsciiEscape m cs)
    (hlow : ¬(0xDC00 ≤ m ∧ m < 0xE000)) (more : List Char) : NoLowAfter (cs ++ more) := by
  intro w x y z tl h _
  cases he with
  | letter e ch _ hu _ =>
    simp only [List.cons_append, List.nil_append, List.cons.injEq] at h
    exact absurd h.2.1 hu
  | unit hlt =>
    obtain ⟨a, b, c, d, hhex, hk⟩ := hex4_read hlt
    simp only [hhex, List.cons_append, List.nil_append, List.cons.injEq] at h
    obtain ⟨-, -, rfl, rfl, rfl, rfl, -⟩ := h
    exact ⟨m, hk, hlow⟩
  | pair hi lo hhigh _ _ =>
    -- the first unit written is a high half
    obtain ⟨a, b, c, d, hhex, hk⟩ := hex4_read (n := hi) (by omega)
    simp only [hhex, List.cons_append, List.nil_append, List.cons.injEq] at h
    obtain ⟨-, -, rfl, rfl, rfl, rfl, -⟩ := h
    exact ⟨hi, hk, by omega⟩
  | plain hp =>
    obtain ⟨c, cs', hcs⟩ := List.exists_cons_of_ne_nil (ofCode_ne_nil m)
    rw [hcs, List.cons_append, List.cons.injEq] at h
    exact ((hp c (by rw [hcs]; exact List.mem_cons_self)).2.1 h.1).elim

/-- **A code point's ASCII escape is read in one step**, a high half alone when
no escape of a low half follows it. -/
theorem stringBody_asciiEscape {n : Nat} {cs : List Char} (start pos : Nat) (acc : List Char)
    (he : AsciiEscape n cs) (hmore : more ≠ [])
    (hnext : 0xD800 ≤ n ∧ n < 0xDC00 → NoLowAfter more) :
    ∃ p, stringBody start (cs ++ more) pos acc = stringBody start more p ((Text.ofCode n).reverse ++ acc) := by
  cases he with
  | letter e ch hs hu hcode =>
    rw [hcode]
    exact ⟨pos + 2, stringBody_simpleEscape hs hu⟩
  | unit hlt =>
    obtain ⟨a, b, c, d, hhex, hk⟩ := hex4_read hlt
    rw [hhex]
    by_cases hhigh : 0xD800 ≤ n ∧ n < 0xDC00
    · exact ⟨pos + 6, stringBody_high_alone hk hhigh hmore (hnext hhigh)⟩
    · exact ⟨pos + 6, stringBody_unicodeEscape hk hhigh hmore⟩
  | pair hi lo hhigh hlow hjoin =>
    -- the two halves of the pair join into `n` again
    obtain ⟨a, b, c, d, hhex, hk⟩ := hex4_read (n := hi) (by omega)
    obtain ⟨w, x, y, z, hhex', hk'⟩ := hex4_read (n := lo) (by omega)
    rw [hhex, hhex']
    refine ⟨pos + 12, ?_⟩
    simp only [List.cons_append, List.nil_append]
    rw [stringBody_pair hk hk' hhigh hlow hmore, ← hjoin]
    rfl
  | plain hp => exact ⟨_, stringBody_plains hp⟩

/-- **The escapes of a high half and a low half right after it are read as the
one code point the two stand for**, when more text follows. -/
theorem stringBody_halves {h l : Nat} (hh : 0xD800 ≤ h ∧ h < 0xDC00) (hl : 0xDC00 ≤ l ∧ l < 0xE000)
    (hmore : more ≠ []) :
    stringBody start ((escapeCode true h).toList ++ ((escapeCode true l).toList ++ more)) pos acc =
      stringBody start more (pos + 12) ((Text.ofCode (Text.pairCode h l)).reverse ++ acc) := by
  have hsur : ∀ k, 0xD800 ≤ k ∧ k < 0xE000 → k ∉ letterCodes ∧ Text.isSurrogateCode k = true := by
    intro k hk
    refine ⟨by simp [letterCodes]; omega, ?_⟩
    unfold Text.isSurrogateCode Text.surrogateBase Text.surrogateCount
    simp only [Bool.and_eq_true, decide_eq_true_eq]
    omega
  obtain ⟨hhl, hhs⟩ := hsur h (by omega)
  obtain ⟨hll, hls⟩ := hsur l (by omega)
  obtain ⟨a, b, c, d, hhex, hk⟩ := hex4_read (n := h) (by omega)
  obtain ⟨w, x, y, z, hhex', hk'⟩ := hex4_read (n := l) (by omega)
  rw [escapeCode_unit hhl (.inl hhs), escapeCode_unit hll (.inl hls), hhex, hhex']
  simp only [List.cons_append, List.nil_append]
  exact stringBody_pair hk hk' hh hl hmore

theorem isHighHalf_iff (n : Nat) : Text.isHighHalf n = true ↔ 0xD800 ≤ n ∧ n < 0xDC00 := by
  simp [Text.isHighHalf]

theorem isLowHalf_iff (n : Nat) : Text.isLowHalf n = true ↔ 0xDC00 ≤ n ∧ n < 0xE000 := by
  simp [Text.isLowHalf]

/-- **The ASCII escapes of code points, then the closing quote, are read as the
characters holding those code points**, the halves that stand side by side
joined. -/
theorem stringBody_asciiEscapes (start : Nat) (rest : List Char) :
    ∀ ns : List Nat, (∀ n ∈ ns, n.isValidChar ∨ Text.isSurrogateCode n = true) → ∀ pos acc,
      ∃ p, stringBody start ((ns.map (escapeCode true)).flatMap String.toList ++ '"' :: rest) pos acc =
        .ok (String.ofList (acc.reverse ++ (Text.joinHalves ns).flatMap Text.ofCode), rest, p)
  | [], _, pos, acc => by
    refine ⟨pos + 1, ?_⟩
    simp only [List.map_nil, List.flatMap_nil, List.nil_append, Text.joinHalves, List.append_nil]
    rw [stringBody.eq_def]
    rfl
  | [n], hns, pos, acc => by
    obtain ⟨p, hp⟩ := stringBody_asciiEscape start pos acc
      (asciiEscape_escapeCode (hns n List.mem_cons_self)) (List.cons_ne_nil '"' rest)
      (fun _ => noLowAfter_quote rest)
    refine ⟨p + 1, ?_⟩
    simp only [List.map_cons, List.map_nil, List.flatMap_cons, List.flatMap_nil, List.append_nil,
      Text.joinHalves]
    rw [hp, stringBody.eq_def]
    simp
  | h :: l :: ns, hns, pos, acc => by
    have hrest : ∀ m ∈ l :: ns, m.isValidChar ∨ Text.isSurrogateCode m = true :=
      fun m hm => hns m (List.mem_cons_of_mem h hm)
    simp only [List.map_cons, List.flatMap_cons, List.append_assoc]
    by_cases hpair : Text.isHighHalf h && Text.isLowHalf l
    · -- a high half then a low half: one code point
      rw [Bool.and_eq_true, isHighHalf_iff, isLowHalf_iff] at hpair
      obtain ⟨p, hp⟩ := stringBody_asciiEscapes start rest ns (fun m hm => hrest m (List.mem_cons_of_mem l hm))
        (pos + 12) ((Text.ofCode (Text.pairCode h l)).reverse ++ acc)
      refine ⟨p, ?_⟩
      rw [stringBody_halves hpair.1 hpair.2 (by simp), hp, Text.joinHalves, if_pos (by
        simp [isHighHalf_iff, isLowHalf_iff, hpair])]
      simp
    · -- the first code point on its own
      have hnext : 0xD800 ≤ h ∧ h < 0xDC00 →
          NoLowAfter ((escapeCode true l).toList ++ (((ns.map (escapeCode true)).flatMap String.toList) ++
            '"' :: rest)) := by
        intro hh
        refine noLowAfter_escape (asciiEscape_escapeCode (hrest l List.mem_cons_self)) ?_ _
        rw [← isLowHalf_iff]
        rw [← isHighHalf_iff] at hh
        simpa [hh] using hpair
      obtain ⟨p, hp⟩ := stringBody_asciiEscape start pos acc
        (asciiEscape_escapeCode (hns h List.mem_cons_self)) (by simp) hnext
      obtain ⟨p', hp'⟩ := stringBody_asciiEscapes start rest (l :: ns) hrest p ((Text.ofCode h).reverse ++ acc)
      refine ⟨p', ?_⟩
      simp only [List.map_cons, List.flatMap_cons, List.append_assoc] at hp'
      rw [hp, hp', Text.joinHalves, if_neg hpair]
      simp

/-- **A text written in ASCII is read back with its halves rejoined**, whatever
follows the closing quote. -/
theorem quotesAs_rejoined : QuotesAs true Text.rejoined := by
  intro s start pos rest
  rw [String.toList_join]
  obtain ⟨p, hp⟩ := stringBody_asciiEscapes start rest (Text.codePoints s.toList)
    (fun n hn => Text.mem_codePoints hn) pos []
  refine ⟨p, ?_⟩
  rw [hp]
  simp [Text.rejoined]

end Reader

end Json

end NodeFlow
