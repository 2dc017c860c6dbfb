/-!
# Lone surrogate halves

Text read from JSON may hold an escape `\uD800`–`\uDFFF` that pairs with no
other: a lone surrogate half. A string here holds only Unicode scalar values,
so each lone half is kept as a stand-in character in plane 16, the half's code
plus U+100000 (U+10D800–U+10DFFF), in the same order as the halves. The
characters that really are U+10D800–U+10DFFF, and the mark U+10D7FF right
before them, are held as two characters: the mark, then themselves (`ofCode`).
So every held text stands for exactly one sequence of code points
(`codePoints`), and writers, orders, lengths and encodings go by that
sequence. A text stored as bytes and read back (`reencoded`) keeps the halves
that carry a byte as those bytes, which may then spell a character.
-/

namespace NodeFlow

namespace Text

/-- The first stand-in character, for the half U+D800. -/
def standInBase : Nat := 0x10D800

/-- The number of surrogate halves. -/
def surrogateCount : Nat := 0x800

/-- The first surrogate half. -/
def surrogateBase : Nat := 0xD800

/-- The mark before a character that stands for itself. -/
def holdMark : Char := Char.ofNat 0x10D7FF

/-- Whether a character is held behind the mark: the mark and the stand-ins. -/
def needsMark (c : Char) : Bool :=
  holdMark.toNat ≤ c.toNat && c.toNat < standInBase + surrogateCount

/-- Whether a code point is a surrogate half. -/
def isSurrogateCode (n : Nat) : Bool := surrogateBase ≤ n && n < surrogateBase + surrogateCount

/-- The stand-in character of a surrogate half. -/
def ofSurrogate (n : Nat) : Char := Char.ofNat (standInBase + (n - surrogateBase))

/-- The surrogate half an unmarked stand-in character stands for. -/
def surrogate? (c : Char) : Option Nat :=
  if standInBase ≤ c.toNat && c.toNat < standInBase + surrogateCount then
    some (c.toNat - standInBase + surrogateBase)
  else none

/-- The code point an unmarked character stands for: a stand-in its half, any
other itself. -/
def codeOf (c : Char) : Nat := (surrogate? c).getD c.toNat

/-- The characters that hold a code point: a half its stand-in, a character
that needs the mark the mark and itself, any other itself. -/
def ofCode (n : Nat) : List Char :=
  if isSurrogateCode n then [ofSurrogate n]
  else
    let c := Char.ofNat n
    if needsMark c then [holdMark, c] else [c]

/-- The code points held characters stand for. -/
def codePoints : List Char → List Nat
  | [] => []
  | [c] => [codeOf c]
  | c :: tail@(d :: rest) =>
    if c == holdMark && needsMark d then d.toNat :: codePoints rest
    else codeOf c :: codePoints tail

/-- A text of plain characters held: those that need the mark get it. -/
def hold (s : String) : String :=
  String.ofList (s.toList.flatMap fun c => ofCode c.toNat)

/-- A held text as plain characters: marks dropped, halves left as their
stand-ins. -/
def release (s : String) : String :=
  String.ofList ((codePoints s.toList).map fun n =>
    if isSurrogateCode n then ofSurrogate n else Char.ofNat n)

/-- The texts of one code point each that a text is made of, in order. -/
def characters (s : String) : List String :=
  (codePoints s.toList).map fun n => String.ofList (ofCode n)

/-- The number of code points a text stands for. -/
def codeLength (s : String) : Nat := (codePoints s.toList).length

/-- Whether a text holds a lone surrogate half. -/
def hasSurrogate (s : String) : Bool := (codePoints s.toList).any isSurrogateCode

/-- Whether a surrogate half can stand for a raw byte when a name is encoded:
the halves U+DC80–U+DCFF carry the bytes 0x80–0xFF. -/
def carriesByte (half : Nat) : Bool := 0xDC80 ≤ half && half ≤ 0xDCFF

/-- Four lowercase hexadecimal digits. -/
def hex4 (n : Nat) : String :=
  let ds := Nat.toDigits 16 n
  String.ofList (List.replicate (4 - ds.length) '0' ++ ds)

/-- The text of a failed encoding of the characters from `start` up to
`stop`, the first of them being the half `half`. -/
def encodeFailureText (half start stop : Nat) : String :=
  if stop == start + 1 then
    "'utf-8' codec can't encode character '\\u" ++ hex4 half ++ "' in position " ++
      toString start ++ ": surrogates not allowed"
  else "'utf-8' codec can't encode characters in position " ++ toString start ++ "-" ++
    toString (stop - 1) ++ ": surrogates not allowed"

/-- Why code points from position `pos` on have no UTF-8 encoding: the first
surrogate half that cannot be encoded, together with the halves right after it.
With `escapeBytes`, halves carrying a byte are encoded. -/
def encodeFailure : List Nat → Nat → Bool → Option String
  | [], _, _ => none
  | n :: rest, pos, escapeBytes =>
    if !isSurrogateCode n || (escapeBytes && carriesByte n) then
      encodeFailure rest (pos + 1) escapeBytes
    else
      let more := (rest.takeWhile isSurrogateCode).length
      some (encodeFailureText n pos (pos + 1 + more))

/-- Why a text cannot be encoded as UTF-8, if it cannot; see `encodeFailure`. -/
def utf8Failure? (s : String) (escapeBytes : Bool) : Option String :=
  encodeFailure (codePoints s.toList) 0 escapeBytes

/-- The UTF-8 bytes of a code point. -/
def utf8Of (n : Nat) : List Nat :=
  if n < 0x80 then [n]
  else if n < 0x800 then [0xC0 + n / 0x40, 0x80 + n % 0x40]
  else if n < 0x10000 then [0xE0 + n / 0x1000, 0x80 + n / 0x40 % 0x40, 0x80 + n % 0x40]
  else [0xF0 + n / 0x40000, 0x80 + n / 0x1000 % 0x40, 0x80 + n / 0x40 % 0x40, 0x80 + n % 0x40]

/-- The number of bytes a text takes in UTF-8, a half that carries a byte
taking that one byte. -/
def byteLength (s : String) : Nat :=
  (codePoints s.toList).foldr (fun n total => (if carriesByte n then 1 else (utf8Of n).length) + total) 0

/-- Whether a byte continues a UTF-8 sequence. -/
def isContinuation (b : Nat) : Bool := 0x80 ≤ b && b < 0xC0

/-- What a byte leads: the number of bytes after it, and the bounds of the
first of them; none for a byte that leads no well-formed sequence. The bounds
keep out overlong forms, the halves and code points past U+10FFFF. -/
def leadShape (b : Nat) : Option (Nat × Nat × Nat) :=
  if 0xC2 ≤ b && b ≤ 0xDF then some (1, 0x80, 0xBF)
  else if b == 0xE0 then some (2, 0xA0, 0xBF)
  else if b == 0xED then some (2, 0x80, 0x9F)
  else if 0xE1 ≤ b && b ≤ 0xEF then some (2, 0x80, 0xBF)
  else if b == 0xF0 then some (3, 0x90, 0xBF)
  else if b == 0xF4 then some (3, 0x80, 0x8F)
  else if 0xF1 ≤ b && b ≤ 0xF3 then some (3, 0x80, 0xBF)
  else none

/-- The code point a lead byte and the bytes after it begin with, and the bytes
left, when they form a well-formed sequence. -/
def sequence? (lead : Nat) (rest : List Nat) : Option (Nat × List Nat) := do
  let (more, lo, hi) ← leadShape lead
  match rest.take more with
  | first :: others =>
    if others.length + 1 != more || first < lo || hi < first || !others.all isContinuation then none
    else
      let top := lead % (if more == 1 then 0x20 else if more == 2 then 0x10 else 0x08)
      some ((first :: others).foldl (fun acc b => acc * 0x40 + b % 0x40) top, rest.drop more)
  | [] => none

/-- Bytes decoded as UTF-8, a byte that leads no well-formed sequence read as
the half that carries it (U+DC80–U+DCFF); `fuel` bounds the steps, each of
which takes at least one byte. -/
def decodeCarrying : Nat → List Nat → List Nat
  | 0, _ => []
  | _, [] => []
  | fuel + 1, b :: rest =>
    if b < 0x80 then b :: decodeCarrying fuel rest
    else match sequence? b rest with
      | some (n, after) => n :: decodeCarrying fuel after
      | none => (0xDC00 + b) :: decodeCarrying fuel rest

/-- A text as it comes back from a store of bytes, such as the environment: its
code points are written as UTF-8, the halves that carry a byte as that byte,
and the bytes are read back by `decodeCarrying`. Halves that carry a byte and
together spell a character come back as that character. A text with another
half cannot be written (`utf8Failure?`). -/
def reencoded (s : String) : Except String String :=
  match utf8Failure? s true with
  | some why => .error why
  | none =>
    let bytes := (codePoints s.toList).flatMap fun n =>
      if carriesByte n then [n - 0xDC00] else utf8Of n
    .ok (String.ofList ((decodeCarrying bytes.length bytes).flatMap ofCode))

/-- Code point order: the first difference decides, and a proper prefix comes
first. -/
def codesLE : List Nat → List Nat → Bool
  | [], _ => true
  | _ :: _, [] => false
  | a :: as, b :: bs =>
    if a < b then true
    else if b < a then false
    else codesLE as bs

/-- Code point order on texts, surrogate halves in their place. -/
def codeLE (a b : String) : Bool := codesLE (codePoints a.toList) (codePoints b.toList)

end Text

end NodeFlow
