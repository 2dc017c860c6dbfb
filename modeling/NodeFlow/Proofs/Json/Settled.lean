import NodeFlow.Proofs.Json.Ascii
import NodeFlow.Proofs.Json.Exact
import NodeFlow.Proofs.Json.RoundTrip
import NodeFlow.Proofs.Graph.Document
/-!
# Values that come back unchanged from ASCII text

A value written in ASCII and read back is itself when nothing in it is changed
on the way (`Value.settled`): every integer can be written, every NaN is the one
NaN the reader gives, every text and member name is held canonically with no
high half right before a low half (`Text.settled`), and no object repeats a
member name, so merging repeated names changes nothing
(`Fields.ofPairs_of_nodup`). Then reading gives the value back
(`decode_render_settled`).
-/

namespace NodeFlow

namespace Text

/-- A text that comes back unchanged from ASCII: held canonically, with no high
half right before a low half. -/
def settled (s : String) : Bool := canonical s == s && !splitPair (codePoints s.toList)

theorem rejoined_of_settled {s : String} (h : settled s = true) : rejoined s = s := by
  simp only [settled, Bool.and_eq_true, beq_iff_eq, Bool.not_eq_true'] at h
  rw [rejoined_of_splitPair h.2, h.1]

theorem splitPair_of_lt : ∀ ns : List Nat, (∀ n ∈ ns, n < 0xD800) → splitPair ns = false
  | [], _ => rfl
  | [_], _ => rfl
  | h :: l :: rest, hs => by
    have hh : isHighHalf h = false := by
      have := hs h List.mem_cons_self
      simp only [isHighHalf, Bool.and_eq_false_iff, decide_eq_false_iff_not]
      omega
    rw [splitPair, hh, Bool.false_and, Bool.false_or]
    exact splitPair_of_lt (l :: rest) fun n hn => hs n (List.mem_cons_of_mem h hn)

theorem codePoints_ascii {cs : List Char} (h : ∀ c ∈ cs, c.toNat < 0x80) : ∀ n ∈ codePoints cs, n < 0x80 := by
  fun_induction codePoints cs with
  | case1 => simp
  | case2 c =>
    intro n hn
    rw [List.mem_singleton.1 hn, codeOf_ascii (h c List.mem_cons_self)]
    exact h c List.mem_cons_self
  | case3 c d rest hmark _ =>
    rw [Bool.and_eq_true] at hmark
    exact absurd (h d (by simp)) (not_ascii_of_needsMark hmark.2)
  | case4 c d rest _ ih =>
    intro n hn
    rcases List.mem_cons.1 hn with rfl | hn
    · rw [codeOf_ascii (h c List.mem_cons_self)]
      exact h c List.mem_cons_self
    · exact ih (fun x hx => h x (List.mem_cons_of_mem c hx)) n hn

/-- **ASCII texts are settled.** -/
theorem settled_ascii {s : String} (hs : ∀ c ∈ s.toList, c.toNat < 0x80) : settled s = true := by
  have hsplit := splitPair_of_lt _ fun n hn => Nat.lt_trans (codePoints_ascii hs n hn) (by decide)
  simp [settled, canonical_ascii hs, hsplit]

end Text

namespace Json

namespace Fields

/-- Inserting pairs of names new to each other and to the members appends them. -/
theorem foldl_insert_of_nodup :
    ∀ (ps acc : Fields), ((acc ++ ps).map Prod.fst).Nodup →
      ps.foldl (fun acc q => insert acc q.1 q.2) acc = acc ++ ps
  | [], acc, _ => by simp
  | q :: ps, acc, h => by
    have hfresh : acc.has q.1 = false := by
      rw [Bool.eq_false_iff, ne_eq, has_iff]
      rintro ⟨v, hv⟩
      rw [List.map_append, List.nodup_append] at h
      exact h.2.2 q.1 (List.mem_map.2 ⟨(q.1, v), hv, rfl⟩) q.1 (by simp) rfl
    rw [List.foldl_cons, insert, if_neg (by simp [hfresh]),
      foldl_insert_of_nodup ps (acc ++ [q]) (by simpa using h)]
    simp

/-- **Pairs with distinct names are their own merge.** -/
theorem ofPairs_of_nodup {ps : Fields} (h : (ps.map Prod.fst).Nodup) : ofPairs ps = ps :=
  foldl_insert_of_nodup ps [] (by simpa using h)

end Fields

open Reader

mutual

/-- Whether a value comes back unchanged from its ASCII text: its integers can
be written, its NaNs are the reader's, its texts and member names are settled
and no object repeats a member name. -/
def Value.settled : Value → Bool
  | .int n => Issue.writable (.int n)
  | .float x => !x.isNaN || x == notANumber
  | .str s => Text.settled s
  | .arr xs => Value.settledItems xs
  | .obj fs => decide (fs.map Prod.fst).Nodup && Value.settledMembers fs
  | _ => true

/-- Whether every item is settled. -/
def Value.settledItems : List Value → Bool
  | [] => true
  | v :: vs => v.settled && Value.settledItems vs

/-- Whether every member's name and value are settled. -/
def Value.settledMembers : List (String × Value) → Bool
  | [] => true
  | (k, v) :: rest => Text.settled k && v.settled && Value.settledMembers rest

end

theorem Value.settledItems_eq_all (xs : List Value) : Value.settledItems xs = xs.all Value.settled := by
  induction xs with
  | nil => rfl
  | cons v vs ih => rw [Value.settledItems, ih, List.all_cons]

/-- Members named in ASCII are settled when their values are. -/
theorem Value.settledMembers_ascii :
    ∀ fs : List (String × Value), (∀ p ∈ fs, ∀ c ∈ p.1.toList, c.toNat < 0x80) →
      Value.settledMembers fs = fs.all (·.2.settled)
  | [], _ => rfl
  | (k, v) :: rest, h => by
    rw [Value.settledMembers, Text.settled_ascii (h _ List.mem_cons_self), Bool.true_and,
      Value.settledMembers_ascii rest fun p hp => h p (List.mem_cons_of_mem _ hp), List.all_cons]

/-- An object with distinct names in ASCII is settled when its members'
values are. -/
theorem Value.settled_obj_ascii {fs : List (String × Value)} (hnames : (fs.map Prod.fst).Nodup)
    (hascii : ∀ p ∈ fs, ∀ c ∈ p.1.toList, c.toNat < 0x80) : (Value.obj fs).settled = fs.all (·.2.settled) := by
  rw [Value.settled, decide_eq_true hnames, Bool.true_and, Value.settledMembers_ascii fs hascii]

mutual

theorem Value.writable_of_settled : ∀ v : Value, v.settled = true → Issue.writable v = true
  | .null, _ | .bool _, _ | .float _, _ | .str _, _ => rfl
  | .int _, h => h
  | .arr xs, h => Value.writableItems_of_settled xs h
  | .obj fs, h => by
    simp only [Value.settled, Bool.and_eq_true] at h
    exact Value.writableMembers_of_settled fs h.2

theorem Value.writableItems_of_settled :
    ∀ xs : List Value, Value.settledItems xs = true → Issue.writableItems xs = true
  | [], _ => rfl
  | x :: xs, h => by
    simp only [Value.settledItems, Bool.and_eq_true] at h
    simp only [Issue.writableItems, Value.writable_of_settled x h.1, Value.writableItems_of_settled xs h.2,
      Bool.and_self]

theorem Value.writableMembers_of_settled :
    ∀ fs : List (String × Value), Value.settledMembers fs = true → Issue.writableMembers fs = true
  | [], _ => rfl
  | (k, v) :: fs, h => by
    simp only [Value.settledMembers, Bool.and_eq_true] at h
    simp only [Issue.writableMembers, Value.writable_of_settled v h.1.2,
      Value.writableMembers_of_settled fs h.2, Bool.and_self]

end

/-- A double that is no NaN other than the reader's is read back as itself. -/
theorem rereadDouble_of_settled {x : Binary64} (h : (!x.isNaN || x == notANumber) = true) :
    rereadDouble x = x := by
  rw [rereadDouble_eq]
  split
  · rename_i hnan
    simp only [hnan, Bool.not_true, Bool.false_or, beq_iff_eq] at h
    exact h.symm
  · rfl

mutual

/-- **A settled value is what reading its ASCII text gives back.** -/
theorem Value.rereadBy_rejoined : ∀ v : Value, v.settled = true → v.rereadBy Text.rejoined = v
  | .null, _ | .bool _, _ | .int _, _ => rfl
  | .float x, h => by
    rw [Value.rereadBy, rereadDouble_of_settled h]
  | .str s, h => by
    rw [Value.rereadBy, Text.rejoined_of_settled h]
  | .arr xs, h => by
    rw [Value.rereadBy, Value.rereadItemsBy_rejoined xs h]
  | .obj fs, h => by
    simp only [Value.settled, Bool.and_eq_true, decide_eq_true_eq] at h
    rw [Value.rereadBy, Value.rereadMembersBy_rejoined fs h.2, Fields.ofPairs_of_nodup h.1]

theorem Value.rereadItemsBy_rejoined :
    ∀ xs : List Value, Value.settledItems xs = true → Value.rereadItemsBy Text.rejoined xs = xs
  | [], _ => rfl
  | x :: xs, h => by
    simp only [Value.settledItems, Bool.and_eq_true] at h
    rw [Value.rereadItemsBy, Value.rereadBy_rejoined x h.1, Value.rereadItemsBy_rejoined xs h.2]

theorem Value.rereadMembersBy_rejoined :
    ∀ fs : List (String × Value), Value.settledMembers fs = true →
      Value.rereadMembersBy Text.rejoined fs = fs
  | [], _ => rfl
  | (k, v) :: fs, h => by
    simp only [Value.settledMembers, Bool.and_eq_true] at h
    rw [Value.rereadMembersBy, Text.rejoined_of_settled h.1.1, Value.rereadBy_rejoined v h.1.2,
      Value.rereadMembersBy_rejoined fs h.2]

end

/-- **A settled value written on one line in ASCII is read back as itself.** -/
theorem decode_render_settled {v : Value} (hv : v.settled = true) :
    Value.decode (v.render Layout.inlineAscii) = .ok v := by
  rw [decode_renderBy Layout.inlineAscii_separated quotesAs_rejoined v (Value.writable_of_settled v hv),
    Value.rereadBy_rejoined v hv]

end Json

end NodeFlow
