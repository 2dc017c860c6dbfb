import NodeFlow.Text.Table
/-!
# Case mappings

The full lowercase, uppercase and case-folding maps of the Unicode standard
(version 14), one character at a time; a character may map to several, as
`ß` uppercases to `SS` and `İ` lowercases to `i` with a combining dot.
Lowercasing maps capital sigma to the final form `ς` at the end of a word:
when a cased letter comes before it and none after it, skipping the
case-ignorable characters (marks, modifiers, apostrophes) on both sides; it
maps to `σ` everywhere else.

A `CaseMap` is a sorted array of rules. A `shift` rule moves the code points
`start, start + step, …` (`count` of them) by `delta`; an `expand` rule maps one
code point to a sequence. Code points no rule covers map to themselves. On
ASCII the three maps are the ASCII case mappings, `Char.toLower` and
`Char.toUpper`, which are used there directly.
-/

namespace NodeFlow

namespace Text

/-- One rule of a case map. -/
inductive CaseRule where
  | shift (start count step : Nat) (delta : Int)
  | expand (point : Nat) (image : List Char)

/-- The first code point a rule covers. -/
def CaseRule.start : CaseRule → Nat
  | .shift s _ _ _ => s
  | .expand p _ => p

/-- The image of a code point under a rule, if the rule covers it. -/
def CaseRule.image? (r : CaseRule) (n : Nat) : Option (List Char) :=
  match r with
  | .shift s count step delta =>
    if s ≤ n ∧ (n - s) % step = 0 ∧ (n - s) / step < count then
      some [Char.ofNat (((n : Int) + delta).toNat)]
    else none
  | .expand p image => if n = p then some image else none

/-- A case map as sorted rules with disjoint spans. -/
structure CaseMap where
  rules : Array CaseRule

namespace CaseMap

/-- Read rules: `R<start>,<count>,<step>,<delta>` for a shift and
`M<point>,<image>…` for an expansion, points in hexadecimal. -/
def ofText (text : String) : CaseMap :=
  ⟨((tableFields text ',').filterMap fun fs => match fs with
    | [h, count, step, delta] =>
      match h.toList with
      | 'R' :: s => some (.shift (hexNat (String.ofList s)) (decInt count).toNat (decInt step).toNat (decInt delta))
      | 'M' :: p => some (.expand (hexNat (String.ofList p)) ([count, step, delta].map fun x => Char.ofNat (hexNat x)))
      | _ => none
    | h :: rest =>
      match h.toList with
      | 'M' :: p => some (.expand (hexNat (String.ofList p)) (rest.map fun x => Char.ofNat (hexNat x)))
      | _ => none
    | [] => none).toArray⟩

/-- The image of one character. -/
def applyChar (m : CaseMap) (c : Char) : List Char :=
  let n := c.toNat
  match lastAtMost m.rules CaseRule.start n 0 m.rules.size none with
  | some i => match m.rules[i]? with
    | some r => (CaseRule.image? r n).getD [c]
    | none => [c]
  | none => [c]

/-- The image of a text, character by character, with `ascii` its image of an
ASCII character. -/
def apply (m : CaseMap) (ascii : Char → Char) (s : String) : String :=
  String.ofList (s.toList.flatMap fun c => if c.toNat < 0x80 then [ascii c] else m.applyChar c)

end CaseMap

/-- The full lowercase map. -/
def lowerMap : CaseMap := CaseMap.ofText (
  "R41,26,1,32 Rc0,23,1,32 Rd8,7,1,32 R100,24,2,1 M130,69,307 R132,3,2,1 R139,8,2,1 "
  ++ "R14a,23,2,1 R178,1,1,-121 R179,3,2,1 R181,1,1,210 R182,2,2,1 R186,1,1,206 R187,1,1,1 "
  ++ "R189,2,1,205 R18b,1,1,1 R18e,1,1,79 R18f,1,1,202 R190,1,1,203 R191,1,1,1 R193,1,1,205 "
  ++ "R194,1,1,207 R196,1,1,211 R197,1,1,209 R198,1,1,1 R19c,1,1,211 R19d,1,1,213 "
  ++ "R19f,1,1,214 R1a0,3,2,1 R1a6,1,1,218 R1a7,1,1,1 R1a9,1,1,218 R1ac,1,1,1 R1ae,1,1,218 "
  ++ "R1af,1,1,1 R1b1,2,1,217 R1b3,2,2,1 R1b7,1,1,219 R1b8,1,1,1 R1bc,1,1,1 R1c4,1,1,2 "
  ++ "R1c5,1,1,1 R1c7,1,1,2 R1c8,1,1,1 R1ca,1,1,2 R1cb,9,2,1 R1de,9,2,1 R1f1,1,1,2 R1f2,2,2,1 "
  ++ "R1f6,1,1,-97 R1f7,1,1,-56 R1f8,20,2,1 R220,1,1,-130 R222,9,2,1 R23a,1,1,10795 "
  ++ "R23b,1,1,1 R23d,1,1,-163 R23e,1,1,10792 R241,1,1,1 R243,1,1,-195 R244,1,1,69 "
  ++ "R245,1,1,71 R246,5,2,1 R370,2,2,1 R376,1,1,1 R37f,1,1,116 R386,1,1,38 R388,3,1,37 "
  ++ "R38c,1,1,64 R38e,2,1,63 R391,17,1,32 R3a3,9,1,32 R3cf,1,1,8 R3d8,12,2,1 R3f4,1,1,-60 "
  ++ "R3f7,1,1,1 R3f9,1,1,-7 R3fa,1,1,1 R3fd,3,1,-130 R400,16,1,80 R410,32,1,32 R460,17,2,1 "
  ++ "R48a,27,2,1 R4c0,1,1,15 R4c1,7,2,1 R4d0,48,2,1 R531,38,1,48 R10a0,38,1,7264 "
  ++ "R10c7,1,1,7264 R10cd,1,1,7264 R13a0,80,1,38864 R13f0,6,1,8 R1c90,43,1,-3008 "
  ++ "R1cbd,3,1,-3008 R1e00,75,2,1 R1e9e,1,1,-7615 R1ea0,48,2,1 R1f08,8,1,-8 R1f18,6,1,-8 "
  ++ "R1f28,8,1,-8 R1f38,8,1,-8 R1f48,6,1,-8 R1f59,4,2,-8 R1f68,8,1,-8 R1f88,8,1,-8 "
  ++ "R1f98,8,1,-8 R1fa8,8,1,-8 R1fb8,2,1,-8 R1fba,2,1,-74 R1fbc,1,1,-9 R1fc8,4,1,-86 "
  ++ "R1fcc,1,1,-9 R1fd8,2,1,-8 R1fda,2,1,-100 R1fe8,2,1,-8 R1fea,2,1,-112 R1fec,1,1,-7 "
  ++ "R1ff8,2,1,-128 R1ffa,2,1,-126 R1ffc,1,1,-9 R2126,1,1,-7517 R212a,1,1,-8383 "
  ++ "R212b,1,1,-8262 R2132,1,1,28 R2160,16,1,16 R2183,1,1,1 R24b6,26,1,26 R2c00,48,1,48 "
  ++ "R2c60,1,1,1 R2c62,1,1,-10743 R2c63,1,1,-3814 R2c64,1,1,-10727 R2c67,3,2,1 "
  ++ "R2c6d,1,1,-10780 R2c6e,1,1,-10749 R2c6f,1,1,-10783 R2c70,1,1,-10782 R2c72,1,1,1 "
  ++ "R2c75,1,1,1 R2c7e,2,1,-10815 R2c80,50,2,1 R2ceb,2,2,1 R2cf2,1,1,1 Ra640,23,2,1 "
  ++ "Ra680,14,2,1 Ra722,7,2,1 Ra732,31,2,1 Ra779,2,2,1 Ra77d,1,1,-35332 Ra77e,5,2,1 "
  ++ "Ra78b,1,1,1 Ra78d,1,1,-42280 Ra790,2,2,1 Ra796,10,2,1 Ra7aa,1,1,-42308 Ra7ab,1,1,-42319 "
  ++ "Ra7ac,1,1,-42315 Ra7ad,1,1,-42305 Ra7ae,1,1,-42308 Ra7b0,1,1,-42258 Ra7b1,1,1,-42282 "
  ++ "Ra7b2,1,1,-42261 Ra7b3,1,1,928 Ra7b4,8,2,1 Ra7c4,1,1,-48 Ra7c5,1,1,-42307 "
  ++ "Ra7c6,1,1,-35384 Ra7c7,2,2,1 Ra7d0,1,1,1 Ra7d6,2,2,1 Ra7f5,1,1,1 Rff21,26,1,32 "
  ++ "R10400,40,1,40 R104b0,36,1,40 R10570,11,1,39 R1057c,15,1,39 R1058c,7,1,39 R10594,2,1,39 "
  ++ "R10c80,51,1,64 R118a0,32,1,32 R16e40,32,1,32 R1e900,34,1,34 ")

/-- The full uppercase map. -/
def upperMap : CaseMap := CaseMap.ofText (
  "R61,26,1,-32 Rb5,1,1,743 Mdf,53,53 Re0,23,1,-32 Rf8,7,1,-32 Rff,1,1,121 R101,24,2,-1 "
  ++ "R131,1,1,-232 R133,3,2,-1 R13a,8,2,-1 M149,2bc,4e R14b,23,2,-1 R17a,3,2,-1 "
  ++ "R17f,1,1,-300 R180,1,1,195 R183,2,2,-1 R188,1,1,-1 R18c,1,1,-1 R192,1,1,-1 R195,1,1,97 "
  ++ "R199,1,1,-1 R19a,1,1,163 R19e,1,1,130 R1a1,3,2,-1 R1a8,1,1,-1 R1ad,1,1,-1 R1b0,1,1,-1 "
  ++ "R1b4,2,2,-1 R1b9,1,1,-1 R1bd,1,1,-1 R1bf,1,1,56 R1c5,1,1,-1 R1c6,1,1,-2 R1c8,1,1,-1 "
  ++ "R1c9,1,1,-2 R1cb,1,1,-1 R1cc,1,1,-2 R1ce,8,2,-1 R1dd,1,1,-79 R1df,9,2,-1 M1f0,4a,30c "
  ++ "R1f2,1,1,-1 R1f3,1,1,-2 R1f5,1,1,-1 R1f9,20,2,-1 R223,9,2,-1 R23c,1,1,-1 R23f,2,1,10815 "
  ++ "R242,1,1,-1 R247,5,2,-1 R250,1,1,10783 R251,1,1,10780 R252,1,1,10782 R253,1,1,-210 "
  ++ "R254,1,1,-206 R256,2,1,-205 R259,1,1,-202 R25b,1,1,-203 R25c,1,1,42319 R260,1,1,-205 "
  ++ "R261,1,1,42315 R263,1,1,-207 R265,1,1,42280 R266,1,1,42308 R268,1,1,-209 R269,1,1,-211 "
  ++ "R26a,1,1,42308 R26b,1,1,10743 R26c,1,1,42305 R26f,1,1,-211 R271,1,1,10749 R272,1,1,-213 "
  ++ "R275,1,1,-214 R27d,1,1,10727 R280,1,1,-218 R282,1,1,42307 R283,1,1,-218 R287,1,1,42282 "
  ++ "R288,1,1,-218 R289,1,1,-69 R28a,2,1,-217 R28c,1,1,-71 R292,1,1,-219 R29d,1,1,42261 "
  ++ "R29e,1,1,42258 R345,1,1,84 R371,2,2,-1 R377,1,1,-1 R37b,3,1,130 M390,399,308,301 "
  ++ "R3ac,1,1,-38 R3ad,3,1,-37 M3b0,3a5,308,301 R3b1,17,1,-32 R3c2,1,1,-31 R3c3,9,1,-32 "
  ++ "R3cc,1,1,-64 R3cd,2,1,-63 R3d0,1,1,-62 R3d1,1,1,-57 R3d5,1,1,-47 R3d6,1,1,-54 "
  ++ "R3d7,1,1,-8 R3d9,12,2,-1 R3f0,1,1,-86 R3f1,1,1,-80 R3f2,1,1,7 R3f3,1,1,-116 "
  ++ "R3f5,1,1,-96 R3f8,1,1,-1 R3fb,1,1,-1 R430,32,1,-32 R450,16,1,-80 R461,17,2,-1 "
  ++ "R48b,27,2,-1 R4c2,7,2,-1 R4cf,1,1,-15 R4d1,48,2,-1 R561,38,1,-48 M587,535,552 "
  ++ "R10d0,43,1,3008 R10fd,3,1,3008 R13f8,6,1,-8 R1c80,1,1,-6254 R1c81,1,1,-6253 "
  ++ "R1c82,1,1,-6244 R1c83,2,1,-6242 R1c85,1,1,-6243 R1c86,1,1,-6236 R1c87,1,1,-6181 "
  ++ "R1c88,1,1,35266 R1d79,1,1,35332 R1d7d,1,1,3814 R1d8e,1,1,35384 R1e01,75,2,-1 "
  ++ "M1e96,48,331 M1e97,54,308 M1e98,57,30a M1e99,59,30a M1e9a,41,2be R1e9b,1,1,-59 "
  ++ "R1ea1,48,2,-1 R1f00,8,1,8 R1f10,6,1,8 R1f20,8,1,8 R1f30,8,1,8 R1f40,6,1,8 M1f50,3a5,313 "
  ++ "R1f51,1,1,8 M1f52,3a5,313,300 R1f53,1,1,8 M1f54,3a5,313,301 R1f55,1,1,8 "
  ++ "M1f56,3a5,313,342 R1f57,1,1,8 R1f60,8,1,8 R1f70,2,1,74 R1f72,4,1,86 R1f76,2,1,100 "
  ++ "R1f78,2,1,128 R1f7a,2,1,112 R1f7c,2,1,126 M1f80,1f08,399 M1f81,1f09,399 M1f82,1f0a,399 "
  ++ "M1f83,1f0b,399 M1f84,1f0c,399 M1f85,1f0d,399 M1f86,1f0e,399 M1f87,1f0f,399 "
  ++ "M1f88,1f08,399 M1f89,1f09,399 M1f8a,1f0a,399 M1f8b,1f0b,399 M1f8c,1f0c,399 "
  ++ "M1f8d,1f0d,399 M1f8e,1f0e,399 M1f8f,1f0f,399 M1f90,1f28,399 M1f91,1f29,399 "
  ++ "M1f92,1f2a,399 M1f93,1f2b,399 M1f94,1f2c,399 M1f95,1f2d,399 M1f96,1f2e,399 "
  ++ "M1f97,1f2f,399 M1f98,1f28,399 M1f99,1f29,399 M1f9a,1f2a,399 M1f9b,1f2b,399 "
  ++ "M1f9c,1f2c,399 M1f9d,1f2d,399 M1f9e,1f2e,399 M1f9f,1f2f,399 M1fa0,1f68,399 "
  ++ "M1fa1,1f69,399 M1fa2,1f6a,399 M1fa3,1f6b,399 M1fa4,1f6c,399 M1fa5,1f6d,399 "
  ++ "M1fa6,1f6e,399 M1fa7,1f6f,399 M1fa8,1f68,399 M1fa9,1f69,399 M1faa,1f6a,399 "
  ++ "M1fab,1f6b,399 M1fac,1f6c,399 M1fad,1f6d,399 M1fae,1f6e,399 M1faf,1f6f,399 R1fb0,2,1,8 "
  ++ "M1fb2,1fba,399 M1fb3,391,399 M1fb4,386,399 M1fb6,391,342 M1fb7,391,342,399 "
  ++ "M1fbc,391,399 R1fbe,1,1,-7205 M1fc2,1fca,399 M1fc3,397,399 M1fc4,389,399 M1fc6,397,342 "
  ++ "M1fc7,397,342,399 M1fcc,397,399 R1fd0,2,1,8 M1fd2,399,308,300 M1fd3,399,308,301 "
  ++ "M1fd6,399,342 M1fd7,399,308,342 R1fe0,2,1,8 M1fe2,3a5,308,300 M1fe3,3a5,308,301 "
  ++ "M1fe4,3a1,313 R1fe5,1,1,7 M1fe6,3a5,342 M1fe7,3a5,308,342 M1ff2,1ffa,399 M1ff3,3a9,399 "
  ++ "M1ff4,38f,399 M1ff6,3a9,342 M1ff7,3a9,342,399 M1ffc,3a9,399 R214e,1,1,-28 "
  ++ "R2170,16,1,-16 R2184,1,1,-1 R24d0,26,1,-26 R2c30,48,1,-48 R2c61,1,1,-1 R2c65,1,1,-10795 "
  ++ "R2c66,1,1,-10792 R2c68,3,2,-1 R2c73,1,1,-1 R2c76,1,1,-1 R2c81,50,2,-1 R2cec,2,2,-1 "
  ++ "R2cf3,1,1,-1 R2d00,38,1,-7264 R2d27,1,1,-7264 R2d2d,1,1,-7264 Ra641,23,2,-1 "
  ++ "Ra681,14,2,-1 Ra723,7,2,-1 Ra733,31,2,-1 Ra77a,2,2,-1 Ra77f,5,2,-1 Ra78c,1,1,-1 "
  ++ "Ra791,2,2,-1 Ra794,1,1,48 Ra797,10,2,-1 Ra7b5,8,2,-1 Ra7c8,2,2,-1 Ra7d1,1,1,-1 "
  ++ "Ra7d7,2,2,-1 Ra7f6,1,1,-1 Rab53,1,1,-928 Rab70,80,1,-38864 Mfb00,46,46 Mfb01,46,49 "
  ++ "Mfb02,46,4c Mfb03,46,46,49 Mfb04,46,46,4c Mfb05,53,54 Mfb06,53,54 Mfb13,544,546 "
  ++ "Mfb14,544,535 Mfb15,544,53b Mfb16,54e,546 Mfb17,544,53d Rff41,26,1,-32 R10428,40,1,-40 "
  ++ "R104d8,36,1,-40 R10597,11,1,-39 R105a3,15,1,-39 R105b3,7,1,-39 R105bb,2,1,-39 "
  ++ "R10cc0,51,1,-64 R118c0,32,1,-32 R16e60,32,1,-32 R1e922,34,1,-34 ")

/-- The full case-folding map, for caseless comparison. -/
def foldMap : CaseMap := CaseMap.ofText (
  "R41,26,1,32 Rb5,1,1,775 Rc0,23,1,32 Rd8,7,1,32 Mdf,73,73 R100,24,2,1 M130,69,307 "
  ++ "R132,3,2,1 R139,8,2,1 M149,2bc,6e R14a,23,2,1 R178,1,1,-121 R179,3,2,1 R17f,1,1,-268 "
  ++ "R181,1,1,210 R182,2,2,1 R186,1,1,206 R187,1,1,1 R189,2,1,205 R18b,1,1,1 R18e,1,1,79 "
  ++ "R18f,1,1,202 R190,1,1,203 R191,1,1,1 R193,1,1,205 R194,1,1,207 R196,1,1,211 "
  ++ "R197,1,1,209 R198,1,1,1 R19c,1,1,211 R19d,1,1,213 R19f,1,1,214 R1a0,3,2,1 R1a6,1,1,218 "
  ++ "R1a7,1,1,1 R1a9,1,1,218 R1ac,1,1,1 R1ae,1,1,218 R1af,1,1,1 R1b1,2,1,217 R1b3,2,2,1 "
  ++ "R1b7,1,1,219 R1b8,1,1,1 R1bc,1,1,1 R1c4,1,1,2 R1c5,1,1,1 R1c7,1,1,2 R1c8,1,1,1 "
  ++ "R1ca,1,1,2 R1cb,9,2,1 R1de,9,2,1 M1f0,6a,30c R1f1,1,1,2 R1f2,2,2,1 R1f6,1,1,-97 "
  ++ "R1f7,1,1,-56 R1f8,20,2,1 R220,1,1,-130 R222,9,2,1 R23a,1,1,10795 R23b,1,1,1 "
  ++ "R23d,1,1,-163 R23e,1,1,10792 R241,1,1,1 R243,1,1,-195 R244,1,1,69 R245,1,1,71 "
  ++ "R246,5,2,1 R345,1,1,116 R370,2,2,1 R376,1,1,1 R37f,1,1,116 R386,1,1,38 R388,3,1,37 "
  ++ "R38c,1,1,64 R38e,2,1,63 M390,3b9,308,301 R391,17,1,32 R3a3,9,1,32 M3b0,3c5,308,301 "
  ++ "R3c2,1,1,1 R3cf,1,1,8 R3d0,1,1,-30 R3d1,1,1,-25 R3d5,1,1,-15 R3d6,1,1,-22 R3d8,12,2,1 "
  ++ "R3f0,1,1,-54 R3f1,1,1,-48 R3f4,1,1,-60 R3f5,1,1,-64 R3f7,1,1,1 R3f9,1,1,-7 R3fa,1,1,1 "
  ++ "R3fd,3,1,-130 R400,16,1,80 R410,32,1,32 R460,17,2,1 R48a,27,2,1 R4c0,1,1,15 R4c1,7,2,1 "
  ++ "R4d0,48,2,1 R531,38,1,48 M587,565,582 R10a0,38,1,7264 R10c7,1,1,7264 R10cd,1,1,7264 "
  ++ "R13f8,6,1,-8 R1c80,1,1,-6222 R1c81,1,1,-6221 R1c82,1,1,-6212 R1c83,2,1,-6210 "
  ++ "R1c85,1,1,-6211 R1c86,1,1,-6204 R1c87,1,1,-6180 R1c88,1,1,35267 R1c90,43,1,-3008 "
  ++ "R1cbd,3,1,-3008 R1e00,75,2,1 M1e96,68,331 M1e97,74,308 M1e98,77,30a M1e99,79,30a "
  ++ "M1e9a,61,2be R1e9b,1,1,-58 M1e9e,73,73 R1ea0,48,2,1 R1f08,8,1,-8 R1f18,6,1,-8 "
  ++ "R1f28,8,1,-8 R1f38,8,1,-8 R1f48,6,1,-8 M1f50,3c5,313 M1f52,3c5,313,300 "
  ++ "M1f54,3c5,313,301 M1f56,3c5,313,342 R1f59,4,2,-8 R1f68,8,1,-8 M1f80,1f00,3b9 "
  ++ "M1f81,1f01,3b9 M1f82,1f02,3b9 M1f83,1f03,3b9 M1f84,1f04,3b9 M1f85,1f05,3b9 "
  ++ "M1f86,1f06,3b9 M1f87,1f07,3b9 M1f88,1f00,3b9 M1f89,1f01,3b9 M1f8a,1f02,3b9 "
  ++ "M1f8b,1f03,3b9 M1f8c,1f04,3b9 M1f8d,1f05,3b9 M1f8e,1f06,3b9 M1f8f,1f07,3b9 "
  ++ "M1f90,1f20,3b9 M1f91,1f21,3b9 M1f92,1f22,3b9 M1f93,1f23,3b9 M1f94,1f24,3b9 "
  ++ "M1f95,1f25,3b9 M1f96,1f26,3b9 M1f97,1f27,3b9 M1f98,1f20,3b9 M1f99,1f21,3b9 "
  ++ "M1f9a,1f22,3b9 M1f9b,1f23,3b9 M1f9c,1f24,3b9 M1f9d,1f25,3b9 M1f9e,1f26,3b9 "
  ++ "M1f9f,1f27,3b9 M1fa0,1f60,3b9 M1fa1,1f61,3b9 M1fa2,1f62,3b9 M1fa3,1f63,3b9 "
  ++ "M1fa4,1f64,3b9 M1fa5,1f65,3b9 M1fa6,1f66,3b9 M1fa7,1f67,3b9 M1fa8,1f60,3b9 "
  ++ "M1fa9,1f61,3b9 M1faa,1f62,3b9 M1fab,1f63,3b9 M1fac,1f64,3b9 M1fad,1f65,3b9 "
  ++ "M1fae,1f66,3b9 M1faf,1f67,3b9 M1fb2,1f70,3b9 M1fb3,3b1,3b9 M1fb4,3ac,3b9 M1fb6,3b1,342 "
  ++ "M1fb7,3b1,342,3b9 R1fb8,2,1,-8 R1fba,2,1,-74 M1fbc,3b1,3b9 R1fbe,1,1,-7173 "
  ++ "M1fc2,1f74,3b9 M1fc3,3b7,3b9 M1fc4,3ae,3b9 M1fc6,3b7,342 M1fc7,3b7,342,3b9 "
  ++ "R1fc8,4,1,-86 M1fcc,3b7,3b9 M1fd2,3b9,308,300 M1fd3,3b9,308,301 M1fd6,3b9,342 "
  ++ "M1fd7,3b9,308,342 R1fd8,2,1,-8 R1fda,2,1,-100 M1fe2,3c5,308,300 M1fe3,3c5,308,301 "
  ++ "M1fe4,3c1,313 M1fe6,3c5,342 M1fe7,3c5,308,342 R1fe8,2,1,-8 R1fea,2,1,-112 R1fec,1,1,-7 "
  ++ "M1ff2,1f7c,3b9 M1ff3,3c9,3b9 M1ff4,3ce,3b9 M1ff6,3c9,342 M1ff7,3c9,342,3b9 "
  ++ "R1ff8,2,1,-128 R1ffa,2,1,-126 M1ffc,3c9,3b9 R2126,1,1,-7517 R212a,1,1,-8383 "
  ++ "R212b,1,1,-8262 R2132,1,1,28 R2160,16,1,16 R2183,1,1,1 R24b6,26,1,26 R2c00,48,1,48 "
  ++ "R2c60,1,1,1 R2c62,1,1,-10743 R2c63,1,1,-3814 R2c64,1,1,-10727 R2c67,3,2,1 "
  ++ "R2c6d,1,1,-10780 R2c6e,1,1,-10749 R2c6f,1,1,-10783 R2c70,1,1,-10782 R2c72,1,1,1 "
  ++ "R2c75,1,1,1 R2c7e,2,1,-10815 R2c80,50,2,1 R2ceb,2,2,1 R2cf2,1,1,1 Ra640,23,2,1 "
  ++ "Ra680,14,2,1 Ra722,7,2,1 Ra732,31,2,1 Ra779,2,2,1 Ra77d,1,1,-35332 Ra77e,5,2,1 "
  ++ "Ra78b,1,1,1 Ra78d,1,1,-42280 Ra790,2,2,1 Ra796,10,2,1 Ra7aa,1,1,-42308 Ra7ab,1,1,-42319 "
  ++ "Ra7ac,1,1,-42315 Ra7ad,1,1,-42305 Ra7ae,1,1,-42308 Ra7b0,1,1,-42258 Ra7b1,1,1,-42282 "
  ++ "Ra7b2,1,1,-42261 Ra7b3,1,1,928 Ra7b4,8,2,1 Ra7c4,1,1,-48 Ra7c5,1,1,-42307 "
  ++ "Ra7c6,1,1,-35384 Ra7c7,2,2,1 Ra7d0,1,1,1 Ra7d6,2,2,1 Ra7f5,1,1,1 Rab70,80,1,-38864 "
  ++ "Mfb00,66,66 Mfb01,66,69 Mfb02,66,6c Mfb03,66,66,69 Mfb04,66,66,6c Mfb05,73,74 "
  ++ "Mfb06,73,74 Mfb13,574,576 Mfb14,574,565 Mfb15,574,56b Mfb16,57e,576 Mfb17,574,56d "
  ++ "Rff21,26,1,32 R10400,40,1,40 R104b0,36,1,40 R10570,11,1,39 R1057c,15,1,39 R1058c,7,1,39 "
  ++ "R10594,2,1,39 R10c80,51,1,64 R118a0,32,1,32 R16e40,32,1,32 R1e900,34,1,34 ")

/-- The case-ignorable characters: marks, format characters, modifier letters
and symbols, and the apostrophes and dots that may stand inside a word. -/
def caseIgnorable : RangeSet := RangeSet.ofText (
  "27 2e 3a 5e 60 a8 ad af b4 b7-b8 2b0-36f 374-375 37a 384-385 387 483-489 559 55f "
  ++ "591-5bd 5bf 5c1-5c2 5c4-5c5 5c7 5f4 600-605 610-61a 61c 640 64b-65f 670 6d6-6dd "
  ++ "6df-6e8 6ea-6ed 70f 711 730-74a 7a6-7b0 7eb-7f5 7fa 7fd 816-82d 859-85b 888 890-891 "
  ++ "898-89f 8c9-902 93a 93c 941-948 94d 951-957 962-963 971 981 9bc 9c1-9c4 9cd 9e2-9e3 "
  ++ "9fe a01-a02 a3c a41-a42 a47-a48 a4b-a4d a51 a70-a71 a75 a81-a82 abc ac1-ac5 ac7-ac8 "
  ++ "acd ae2-ae3 afa-aff b01 b3c b3f b41-b44 b4d b55-b56 b62-b63 b82 bc0 bcd c00 c04 c3c "
  ++ "c3e-c40 c46-c48 c4a-c4d c55-c56 c62-c63 c81 cbc cbf cc6 ccc-ccd ce2-ce3 d00-d01 "
  ++ "d3b-d3c d41-d44 d4d d62-d63 d81 dca dd2-dd4 dd6 e31 e34-e3a e46-e4e eb1 eb4-ebc ec6 "
  ++ "ec8-ecd f18-f19 f35 f37 f39 f71-f7e f80-f84 f86-f87 f8d-f97 f99-fbc fc6 102d-1030 "
  ++ "1032-1037 1039-103a 103d-103e 1058-1059 105e-1060 1071-1074 1082 1085-1086 108d 109d "
  ++ "10fc 135d-135f 1712-1714 1732-1733 1752-1753 1772-1773 17b4-17b5 17b7-17bd 17c6 "
  ++ "17c9-17d3 17d7 17dd 180b-180f 1843 1885-1886 18a9 1920-1922 1927-1928 1932 1939-193b "
  ++ "1a17-1a18 1a1b 1a56 1a58-1a5e 1a60 1a62 1a65-1a6c 1a73-1a7c 1a7f 1aa7 1ab0-1ace "
  ++ "1b00-1b03 1b34 1b36-1b3a 1b3c 1b42 1b6b-1b73 1b80-1b81 1ba2-1ba5 1ba8-1ba9 1bab-1bad "
  ++ "1be6 1be8-1be9 1bed 1bef-1bf1 1c2c-1c33 1c36-1c37 1c78-1c7d 1cd0-1cd2 1cd4-1ce0 "
  ++ "1ce2-1ce8 1ced 1cf4 1cf8-1cf9 1d2c-1d6a 1d78 1d9b-1dff 1fbd 1fbf-1fc1 1fcd-1fcf "
  ++ "1fdd-1fdf 1fed-1fef 1ffd-1ffe 200b-200f 2018-2019 2024 2027 202a-202e 2060-2064 "
  ++ "2066-206f 2071 207f 2090-209c 20d0-20f0 2c7c-2c7d 2cef-2cf1 2d6f 2d7f 2de0-2dff 2e2f "
  ++ "3005 302a-302d 3031-3035 303b 3099-309e 30fc-30fe a015 a4f8-a4fd a60c a66f-a672 "
  ++ "a674-a67d a67f a69c-a69f a6f0-a6f1 a700-a721 a770 a788-a78a a7f2-a7f4 a7f8-a7f9 a802 "
  ++ "a806 a80b a825-a826 a82c a8c4-a8c5 a8e0-a8f1 a8ff a926-a92d a947-a951 a980-a982 a9b3 "
  ++ "a9b6-a9b9 a9bc-a9bd a9cf a9e5-a9e6 aa29-aa2e aa31-aa32 aa35-aa36 aa43 aa4c aa70 aa7c "
  ++ "aab0 aab2-aab4 aab7-aab8 aabe-aabf aac1 aadd aaec-aaed aaf3-aaf4 aaf6 ab5b-ab5f "
  ++ "ab69-ab6b abe5 abe8 abed fb1e fbb2-fbc2 fe00-fe0f fe13 fe20-fe2f fe52 fe55 feff ff07 "
  ++ "ff0e ff1a ff3e ff40 ff70 ff9e-ff9f ffe3 fff9-fffb 101fd 102e0 10376-1037a 10780-10785 "
  ++ "10787-107b0 107b2-107ba 10a01-10a03 10a05-10a06 10a0c-10a0f 10a38-10a3a 10a3f "
  ++ "10ae5-10ae6 10d24-10d27 10eab-10eac 10f46-10f50 10f82-10f85 11001 11038-11046 11070 "
  ++ "11073-11074 1107f-11081 110b3-110b6 110b9-110ba 110bd 110c2 110cd 11100-11102 "
  ++ "11127-1112b 1112d-11134 11173 11180-11181 111b6-111be 111c9-111cc 111cf 1122f-11231 "
  ++ "11234 11236-11237 1123e 112df 112e3-112ea 11300-11301 1133b-1133c 11340 11366-1136c "
  ++ "11370-11374 11438-1143f 11442-11444 11446 1145e 114b3-114b8 114ba 114bf-114c0 "
  ++ "114c2-114c3 115b2-115b5 115bc-115bd 115bf-115c0 115dc-115dd 11633-1163a 1163d "
  ++ "1163f-11640 116ab 116ad 116b0-116b5 116b7 1171d-1171f 11722-11725 11727-1172b "
  ++ "1182f-11837 11839-1183a 1193b-1193c 1193e 11943 119d4-119d7 119da-119db 119e0 "
  ++ "11a01-11a0a 11a33-11a38 11a3b-11a3e 11a47 11a51-11a56 11a59-11a5b 11a8a-11a96 "
  ++ "11a98-11a99 11c30-11c36 11c38-11c3d 11c3f 11c92-11ca7 11caa-11cb0 11cb2-11cb3 "
  ++ "11cb5-11cb6 11d31-11d36 11d3a 11d3c-11d3d 11d3f-11d45 11d47 11d90-11d91 11d95 11d97 "
  ++ "11ef3-11ef4 13430-13438 16af0-16af4 16b30-16b36 16b40-16b43 16f4f 16f8f-16f9f "
  ++ "16fe0-16fe1 16fe3-16fe4 1aff0-1aff3 1aff5-1affb 1affd-1affe 1bc9d-1bc9e 1bca0-1bca3 "
  ++ "1cf00-1cf2d 1cf30-1cf46 1d167-1d169 1d173-1d182 1d185-1d18b 1d1aa-1d1ad 1d242-1d244 "
  ++ "1da00-1da36 1da3b-1da6c 1da75 1da84 1da9b-1da9f 1daa1-1daaf 1e000-1e006 1e008-1e018 "
  ++ "1e01b-1e021 1e023-1e024 1e026-1e02a 1e130-1e13d 1e2ae 1e2ec-1e2ef 1e8d0-1e8d6 "
  ++ "1e944-1e94b 1f3fb-1f3ff e0001 e0020-e007f e0100-e01ef ")

/-- The cased characters that are not case-ignorable: letters with an upper
or a lower case, and the symbols and numbers counted with them. -/
def casedLetters : RangeSet := RangeSet.ofText (
  "41-5a 61-7a aa b5 ba c0-d6 d8-f6 f8-1ba 1bc-1bf 1c4-293 295-2af 370-373 376-377 "
  ++ "37b-37d 37f 386 388-38a 38c 38e-3a1 3a3-3f5 3f7-481 48a-52f 531-556 560-588 10a0-10c5 "
  ++ "10c7 10cd 10d0-10fa 10fd-10ff 13a0-13f5 13f8-13fd 1c80-1c88 1c90-1cba 1cbd-1cbf "
  ++ "1d00-1d2b 1d6b-1d77 1d79-1d9a 1e00-1f15 1f18-1f1d 1f20-1f45 1f48-1f4d 1f50-1f57 1f59 "
  ++ "1f5b 1f5d 1f5f-1f7d 1f80-1fb4 1fb6-1fbc 1fbe 1fc2-1fc4 1fc6-1fcc 1fd0-1fd3 1fd6-1fdb "
  ++ "1fe0-1fec 1ff2-1ff4 1ff6-1ffc 2102 2107 210a-2113 2115 2119-211d 2124 2126 2128 "
  ++ "212a-212d 212f-2134 2139 213c-213f 2145-2149 214e 2160-217f 2183-2184 24b6-24e9 "
  ++ "2c00-2c7b 2c7e-2ce4 2ceb-2cee 2cf2-2cf3 2d00-2d25 2d27 2d2d a640-a66d a680-a69b "
  ++ "a722-a76f a771-a787 a78b-a78e a790-a7ca a7d0-a7d1 a7d3 a7d5-a7d9 a7f5-a7f6 a7fa "
  ++ "ab30-ab5a ab60-ab68 ab70-abbf fb00-fb06 fb13-fb17 ff21-ff3a ff41-ff5a 10400-1044f "
  ++ "104b0-104d3 104d8-104fb 10570-1057a 1057c-1058a 1058c-10592 10594-10595 10597-105a1 "
  ++ "105a3-105b1 105b3-105b9 105bb-105bc 10c80-10cb2 10cc0-10cf2 118a0-118df 16e40-16e7f "
  ++ "1d400-1d454 1d456-1d49c 1d49e-1d49f 1d4a2 1d4a5-1d4a6 1d4a9-1d4ac 1d4ae-1d4b9 1d4bb "
  ++ "1d4bd-1d4c3 1d4c5-1d505 1d507-1d50a 1d50d-1d514 1d516-1d51c 1d51e-1d539 1d53b-1d53e "
  ++ "1d540-1d544 1d546 1d54a-1d550 1d552-1d6a5 1d6a8-1d6c0 1d6c2-1d6da 1d6dc-1d6fa "
  ++ "1d6fc-1d714 1d716-1d734 1d736-1d74e 1d750-1d76e 1d770-1d788 1d78a-1d7a8 1d7aa-1d7c2 "
  ++ "1d7c4-1d7cb 1df00-1df09 1df0b-1df1e 1e900-1e943 1f130-1f149 1f150-1f169 1f170-1f189 ")

/-- Whether a character is skipped when the neighbours of a sigma are sought. -/
def isCaseIgnorable (c : Char) : Bool := caseIgnorable.mem c.toNat

/-- Whether a character that is not case-ignorable is cased. -/
def isCased (c : Char) : Bool := casedLetters.mem c.toNat

/-- Whether a capital sigma ends a word: the nearest characters before and
after it that are not case-ignorable are cased and not cased (or none). Both
lists start next to the sigma. -/
def endsWord (before after : List Char) : Bool :=
  (match before.dropWhile isCaseIgnorable with
    | c :: _ => isCased c
    | [] => false) &&
  (match after.dropWhile isCaseIgnorable with
    | c :: _ => !isCased c
    | [] => true)

/-- Lowercase characters, `before` holding those already passed, nearest first. -/
def lowerChars : List Char → List Char → List Char
  | _, [] => []
  | before, c :: after =>
    (if c.toNat < 0x80 then [c.toLower]
      else if c == '\u03A3' then [if endsWord before after then '\u03C2' else '\u03C3']
      else lowerMap.applyChar c) ++ lowerChars (c :: before) after

/-- Lowercase a text. -/
def toLower (s : String) : String := String.ofList (lowerChars [] s.toList)

/-- Uppercase a text. -/
def toUpper (s : String) : String := upperMap.apply Char.toUpper s

/-- Fold the case of a text: two texts that differ only in case fold to the same. -/
def caseFold (s : String) : String := foldMap.apply Char.toLower s

/-!
## Finding text inside text

`Text.occursIn needle hay` says whether `needle` is a run of consecutive
characters of `hay`; the empty text occurs in every text.
-/

/-- Whether `needle` starts some suffix of `hay`. -/
def occursInChars (needle : List Char) : List Char → Bool
  | [] => needle.isEmpty
  | c :: rest => needle.isPrefixOf (c :: rest) || occursInChars needle rest

/-- Whether `needle` occurs in `hay`. -/
def occursIn (needle hay : String) : Bool := occursInChars needle.toList hay.toList

end Text

end NodeFlow
