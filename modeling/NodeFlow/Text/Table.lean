/-!
# Tables of code points

Character properties of the Unicode standard are kept as compact text and read
once into sorted arrays. A `RangeSet` is a set of code points given by disjoint
inclusive ranges in increasing order; membership is a binary search.
-/

namespace NodeFlow

namespace Text

/-- The value of a hexadecimal numeral; other characters count as zero. -/
def hexNat (s : String) : Nat :=
  s.toList.foldl (fun acc c =>
    let d := if '0' ≤ c ∧ c ≤ '9' then c.toNat - '0'.toNat
      else if 'a' ≤ c ∧ c ≤ 'f' then c.toNat - 'a'.toNat + 10
      else if 'A' ≤ c ∧ c ≤ 'F' then c.toNat - 'A'.toNat + 10 else 0
    acc * 16 + d) 0

/-- The value of a decimal numeral with an optional leading minus. -/
def decInt (s : String) : Int :=
  match s.toList with
  | '-' :: ds => -((ds.foldl (fun acc c => acc * 10 + (c.toNat - '0'.toNat)) 0 : Nat) : Int)
  | ds => ((ds.foldl (fun acc c => acc * 10 + (c.toNat - '0'.toNat)) 0 : Nat) : Int)

/-- The fields of a table text: entries split at blanks, fields at `sep`. -/
def tableFields (text : String) (sep : Char) : List (List String) :=
  ((text.splitOn " ").filter (fun e => !e.isEmpty)).map (fun e => e.splitOn (String.singleton sep))

/-- The index of the last element whose key is at most `n`, searching
`[lo, hi)` of an array sorted by key, with `best` the answer so far. -/
def lastAtMost {α : Type} (arr : Array α) (key : α → Nat) (n : Nat) (lo hi : Nat)
    (best : Option Nat) : Option Nat :=
  if _h : lo < hi then
    let mid := (lo + hi) / 2
    match arr[mid]? with
    | none => best
    | some x =>
      if key x ≤ n then lastAtMost arr key n (mid + 1) hi (some mid)
      else lastAtMost arr key n lo mid best
  else best
termination_by hi - lo

/-- A set of code points as sorted disjoint inclusive ranges. -/
structure RangeSet where
  ranges : Array (Nat × Nat)

namespace RangeSet

/-- Read ranges written `first-last` in hexadecimal, separated by blanks. -/
def ofText (text : String) : RangeSet :=
  ⟨((tableFields text '-').map fun fs => match fs with
    | [a, b] => (hexNat a, hexNat b)
    | a :: _ => (hexNat a, hexNat a)
    | [] => (0, 0)).toArray⟩

/-- Whether a code point lies in one of the ranges. -/
def mem (r : RangeSet) (n : Nat) : Bool :=
  match lastAtMost r.ranges (·.1) n 0 r.ranges.size none with
  | some i => match r.ranges[i]? with
    | some (_, last) => n ≤ last
    | none => false
  | none => false

end RangeSet

end Text

end NodeFlow
