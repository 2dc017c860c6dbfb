import NodeFlow.Proofs.Json.Settled
import NodeFlow.Proofs.Template.Filled
import NodeFlow.Submission.Compile
/-!
# The canonical text of a value

The canonical layout (`Layout.canonical`, the text a workflow's hash is taken
of) writes an object's members sorted by name in code point order, with no
blanks, and escapes everything outside ASCII. Two settled values have the same
canonical text exactly when they are equal as JSON with each object compared
as a map from names to values (`Value.sameAs`): integers, doubles and booleans
are kinds apart, and doubles are compared by their bits
(`canonicalText_eq_iff_sameAs`). The workflow hash, taken of that text, is the
same for such values.

The proof goes through the value with every object's members sorted
(`Value.sorted`). The canonical layout writes a value as the layout that keeps
member order writes its sorted form (`Writer.value_canonical`), and the reader
takes that text back (`decode_render_canonical`). Members with distinct names
held canonically have one sorted order (`sortByName_eq_of_perm`), so values
equal as maps have equal sorted forms, and back.

Being settled is needed of texts: a high half right before a low half is
escaped as the character the pair encodes (`escapeCode_pairCode`), so a text
holding the two halves and a text holding that character have one canonical
text (`canonicalText_joins_split_pair`).
-/

namespace NodeFlow

namespace Text

theorem codesLE_antisymm : ∀ a b : List Nat, codesLE a b = true → codesLE b a = true → a = b
  | [], [], _, _ => rfl
  | [], _ :: _, _, h => by simp [codesLE] at h
  | _ :: _, [], h, _ => by simp [codesLE] at h
  | a :: as, b :: bs, hab, hba => by
    unfold codesLE at hab hba
    by_cases h1 : a < b
    · simp [h1, show ¬b < a by omega] at hba
    · by_cases h2 : b < a
      · simp [h1, h2] at hab
      · obtain rfl : a = b := by omega
        simp only [h1, if_false] at hab hba
        rw [codesLE_antisymm as bs hab hba]

/-- Texts held canonically that stand for the same code points are one text. -/
theorem eq_of_codePoints_eq {a b : String} (ha : canonical a = a) (hb : canonical b = b)
    (h : codePoints a.toList = codePoints b.toList) : a = b := by
  rw [← ha, ← hb, canonical, canonical, h]

/-- **Code point order is antisymmetric on texts held canonically.** -/
theorem eq_of_codeLE {a b : String} (ha : canonical a = a) (hb : canonical b = b)
    (hab : codeLE a b = true) (hba : codeLE b a = true) : a = b :=
  eq_of_codePoints_eq ha hb (codesLE_antisymm _ _ hab hba)

theorem canonical_of_settled {s : String} (h : settled s = true) : canonical s = s := by
  simp only [settled, Bool.and_eq_true, beq_iff_eq] at h
  exact h.1

end Text

namespace Json

/-! ## Sorting members by name -/

section Names

variable {α β : Type}

theorem sortByName_perm (ps : List (String × α)) : (sortByName ps).Perm ps :=
  List.mergeSort_perm _ _

theorem mem_sortByName {ps : List (String × α)} {p : String × α} : p ∈ sortByName ps ↔ p ∈ ps :=
  (sortByName_perm ps).mem_iff

theorem sortByName_pairwise (ps : List (String × α)) :
    (sortByName ps).Pairwise fun a b => Text.codeLE a.1 b.1 = true :=
  List.pairwise_mergeSort (fun a b c => Text.codeLE_trans a.1 b.1 c.1) (fun a b => Text.codeLE_total a.1 b.1) ps

/-- Sorting by name commutes with changing what each name is paired with. -/
theorem sortByName_map (f : String × α → β) (ps : List (String × α)) :
    sortByName (ps.map fun p => (p.1, f p)) = (sortByName ps).map fun p => (p.1, f p) := by
  unfold sortByName
  refine (List.map_mergeSort ?_).symm
  intro _ _ _ _
  rfl

/-- **Members with distinct names held canonically have one sorted order**:
every reordering of them sorts to the same list. -/
theorem sortByName_eq_of_perm {ps qs : List (String × α)} (hpq : ps.Perm qs)
    (hnames : (qs.map Prod.fst).Nodup) (hcanon : ∀ q ∈ qs, Text.canonical q.1 = q.1) :
    sortByName ps = sortByName qs := by
  refine List.Perm.eq_of_pairwise (fun a b ha hb hab hba => ?_) (sortByName_pairwise ps)
    (sortByName_pairwise qs) (((sortByName_perm ps).trans hpq).trans (sortByName_perm qs).symm)
  have ha' : a ∈ qs := hpq.subset (mem_sortByName.1 ha)
  have hb' : b ∈ qs := mem_sortByName.1 hb
  exact List.inj_on_of_nodup_map hnames ha' hb' (Text.eq_of_codeLE (hcanon a ha') (hcanon b hb') hab hba)

end Names

/-! ## Values equal as maps, and their sorted forms -/

mutual

/-- Equality of values as JSON, each object compared as a map: two objects are
equal when they have as many members and each member of the first finds a
member of its name in the second with an equal value, whatever their order.
Integers, doubles and booleans are kinds apart, and doubles are compared by
their bits. -/
def Value.sameAs : Value → Value → Bool
  | .null, .null => true
  | .bool a, .bool b => a == b
  | .int m, .int n => m == n
  | .float x, .float y => x == y
  | .str s, .str t => s == t
  | .arr xs, .arr ys => Value.sameItems xs ys
  | .obj fs, .obj gs => fs.length == gs.length && Value.sameMembers fs gs
  | _, _ => false

/-- Items equal one by one. -/
def Value.sameItems : List Value → List Value → Bool
  | [], [] => true
  | x :: xs, y :: ys => x.sameAs y && Value.sameItems xs ys
  | _, _ => false

/-- Whether each member finds a member of its name among `gs` with an equal
value. -/
def Value.sameMembers : List (String × Value) → Fields → Bool
  | [], _ => true
  | (k, v) :: rest, gs =>
    (match Fields.get? gs k with
      | some w => v.sameAs w
      | none => false) && Value.sameMembers rest gs

end

mutual

/-- The value with the members of every object sorted by name, the order the
canonical layout writes them in. -/
def Value.sorted : Value → Value
  | .arr xs => .arr (Value.sortedItems xs)
  | .obj fs => .obj (sortByName (Value.sortedMembers fs))
  | v => v

/-- Items sorted within. -/
def Value.sortedItems : List Value → List Value
  | [] => []
  | v :: vs => v.sorted :: Value.sortedItems vs

/-- Members sorted within, in their order. -/
def Value.sortedMembers : List (String × Value) → List (String × Value)
  | [] => []
  | (k, v) :: rest => (k, v.sorted) :: Value.sortedMembers rest

end

@[simp] theorem Value.sortedItems_eq_map (xs : List Value) : Value.sortedItems xs = xs.map Value.sorted := by
  induction xs with
  | nil => rfl
  | cons v vs ih => rw [Value.sortedItems, ih, List.map_cons]

@[simp] theorem Value.sortedMembers_eq_map (fs : List (String × Value)) :
    Value.sortedMembers fs = fs.map fun p => (p.1, p.2.sorted) := by
  induction fs with
  | nil => rfl
  | cons p rest ih => rw [Value.sortedMembers, ih, List.map_cons]

/-! ## The canonical text through the sorted form -/

/-- The canonical layout with members kept in the order given. -/
def Layout.inOrder : Layout := { Layout.canonical with sortKeys := false }

/-- Keeping member order, the canonical layout is one the reader takes back. -/
theorem Layout.inOrder_separated : Layout.inOrder.Separated where
  itemSep := ⟨[], rfl, fun _ h => absurd h List.not_mem_nil⟩
  keySep := ⟨[], rfl, fun _ h => absurd h List.not_mem_nil⟩
  indent := by rintro step ⟨⟩
  unsorted := rfl

theorem Writer.enclose_inOrder : Writer.enclose Layout.inOrder = Writer.enclose Layout.canonical := rfl

mutual

/-- **The canonical layout writes a value as its sorted form is written in
member order.** -/
theorem Writer.value_canonical (level : Nat) : ∀ v : Value,
    Writer.value Layout.canonical level v = Writer.value Layout.inOrder level v.sorted
  | .null => rfl
  | .bool b => by cases b <;> rfl
  | .int _ => rfl
  | .float _ => rfl
  | .str _ => rfl
  | .arr xs => by
    rw [Value.sorted, Writer.value, Writer.value, Writer.items_canonical level xs, Writer.enclose_inOrder]
  | .obj fs => by
    rw [Value.sorted, Writer.value, Writer.value, Writer.members_canonical level fs, Writer.enclose_inOrder]
    -- sorting the written members is writing the sorted members
    simp only [if_pos (show Layout.canonical.sortKeys = true from rfl),
      if_neg (show ¬Layout.inOrder.sortKeys = true from Bool.false_ne_true), Writer.members_eq_map]
    rw [sortByName_map]

theorem Writer.items_canonical (level : Nat) : ∀ xs : List Value,
    Writer.items Layout.canonical level xs = Writer.items Layout.inOrder level (Value.sortedItems xs)
  | [] => rfl
  | x :: xs => by
    rw [Writer.items, Value.sortedItems, Writer.items, Writer.value_canonical (level + 1) x,
      Writer.items_canonical level xs]

theorem Writer.members_canonical (level : Nat) : ∀ fs : List (String × Value),
    Writer.members Layout.canonical level fs = Writer.members Layout.inOrder level (Value.sortedMembers fs)
  | [] => rfl
  | (k, v) :: rest => by
    rw [Writer.members, Value.sortedMembers, Writer.members, Writer.value_canonical (level + 1) v,
      Writer.members_canonical level rest]
    rfl

end

theorem render_canonical (v : Value) : v.render Layout.canonical = v.sorted.render Layout.inOrder :=
  Writer.value_canonical 0 v

/-! ## Reading the canonical text back -/

theorem Value.settledMembers_eq_all : ∀ fs : List (String × Value),
    Value.settledMembers fs = fs.all fun p => Text.settled p.1 && p.2.settled
  | [] => rfl
  | (k, v) :: rest => by
    rw [Value.settledMembers, Value.settledMembers_eq_all rest, List.all_cons, Bool.and_assoc]

theorem Value.settled_obj_iff {fs : List (String × Value)} :
    (Value.obj fs).settled = true ↔ (fs.map Prod.fst).Nodup ∧ Value.settledMembers fs = true := by
  rw [Value.settled, Bool.and_eq_true, decide_eq_true_eq]

@[simp] theorem Value.names_sortedMembers (fs : List (String × Value)) :
    (Value.sortedMembers fs).map Prod.fst = fs.map Prod.fst := by
  simp [Function.comp_def]

/-- The name and value of a member of settled members are settled. -/
theorem Value.settled_of_mem_members {fs : List (String × Value)} (h : Value.settledMembers fs = true)
    {p : String × Value} (hp : p ∈ fs) : Text.settled p.1 = true ∧ p.2.settled = true := by
  rw [Value.settledMembers_eq_all, List.all_eq_true] at h
  simpa using h p hp

mutual

/-- Sorting keeps a value settled. -/
theorem Value.settled_sorted : ∀ v : Value, v.settled = true → v.sorted.settled = true
  | .null, h | .bool _, h | .int _, h | .float _, h | .str _, h => h
  | .arr xs, h => by
    rw [Value.sorted, Value.settled]
    exact Value.settledItems_sorted xs h
  | .obj fs, h => by
    obtain ⟨hnames, hmembers⟩ := Value.settled_obj_iff.1 h
    have hsorted := Value.settledMembers_sorted fs hmembers
    rw [Value.sorted, Value.settled_obj_iff, Value.settledMembers_eq_all, List.all_eq_true]
    refine ⟨((sortByName_perm _).map Prod.fst).nodup_iff.2 (by rwa [Value.names_sortedMembers]), fun p hp => ?_⟩
    simpa using Value.settled_of_mem_members hsorted (mem_sortByName.1 hp)

theorem Value.settledItems_sorted : ∀ xs : List Value,
    Value.settledItems xs = true → Value.settledItems (Value.sortedItems xs) = true
  | [], _ => rfl
  | x :: xs, h => by
    rw [Value.settledItems, Bool.and_eq_true] at h
    rw [Value.sortedItems, Value.settledItems, Value.settled_sorted x h.1, Value.settledItems_sorted xs h.2,
      Bool.and_self]

theorem Value.settledMembers_sorted : ∀ fs : List (String × Value),
    Value.settledMembers fs = true → Value.settledMembers (Value.sortedMembers fs) = true
  | [], _ => rfl
  | (k, v) :: rest, h => by
    simp only [Value.settledMembers, Bool.and_eq_true] at h
    rw [Value.sortedMembers, Value.settledMembers, h.1.1, Value.settled_sorted v h.1.2,
      Value.settledMembers_sorted rest h.2, Bool.and_self, Bool.and_self]

end

/-- **Reading the canonical text of a settled value gives its sorted form.** -/
theorem decode_render_canonical {v : Value} (hv : v.settled = true) :
    Value.decode (v.render Layout.canonical) = .ok v.sorted := by
  have hs := Value.settled_sorted v hv
  rw [render_canonical, decode_renderBy Layout.inOrder_separated Reader.quotesAs_rejoined _
    (Value.writable_of_settled _ hs), Value.rereadBy_rejoined _ hs]

/-- Settled values with one canonical text have one sorted form. -/
theorem sorted_eq_of_render {v w : Value} (hv : v.settled = true) (hw : w.settled = true)
    (h : v.render Layout.canonical = w.render Layout.canonical) : v.sorted = w.sorted := by
  have hread := decode_render_canonical hv
  rw [h, decode_render_canonical hw] at hread
  exact (Except.ok.inj hread).symm

/-! ## Equal as maps exactly when equally sorted -/

/-- In members with distinct names, a member's name finds its value. -/
theorem Fields.get?_of_mem_of_nodup {fs : Fields} {k : String} {v : Value} (hnames : (fs.map Prod.fst).Nodup)
    (h : (k, v) ∈ fs) : fs.get? k = some v := by
  obtain ⟨v', hv'⟩ := Fields.exists_get?_of_mem h
  have hsame : (k, v') = (k, v) := List.inj_on_of_nodup_map hnames (Fields.mem_of_get? hv') h rfl
  rw [hv', (Prod.mk.inj hsame).2]

/-- The sorted members of members with distinct names held canonically. -/
theorem Value.sortedMembers_names {fs : List (String × Value)} (h : (Value.obj fs).settled = true) :
    ((Value.sortedMembers fs).map Prod.fst).Nodup ∧
      ∀ q ∈ Value.sortedMembers fs, Text.canonical q.1 = q.1 := by
  obtain ⟨hnames, hmembers⟩ := Value.settled_obj_iff.1 h
  refine ⟨by rwa [Value.names_sortedMembers], fun q hq => ?_⟩
  rw [Value.sortedMembers_eq_map] at hq
  obtain ⟨p, hp, rfl⟩ := List.mem_map.1 hq
  exact Text.canonical_of_settled (Value.settled_of_mem_members hmembers hp).1

mutual

/-- **Values equal as maps have one sorted form.** -/
theorem Value.sorted_eq_of_sameAs : ∀ v : Value, v.settled = true → ∀ w : Value, w.settled = true →
    v.sameAs w = true → v.sorted = w.sorted
  | .null, _, w, _, h | .bool _, _, w, _, h | .int _, _, w, _, h | .float _, _, w, _, h
  | .str _, _, w, _, h => by
    cases w <;> simp_all [Value.sameAs, Value.sorted]
  | .arr xs, hv, w, hw, h => by
    cases w with
    | arr ys =>
      rw [Value.sameAs] at h
      rw [Value.settled] at hv hw
      rw [Value.sorted, Value.sorted, Value.sortedItems_eq_of_sameItems xs hv ys hw h]
    | _ => simp [Value.sameAs] at h
  | .obj fs, hv, w, hw, h => by
    cases w with
    | obj gs =>
      simp only [Value.sameAs, Bool.and_eq_true, beq_iff_eq] at h
      obtain ⟨hnames, hcanon⟩ := Value.sortedMembers_names hw
      -- the sorted members of `fs` are among those of `gs`, and as many
      have hsub := Value.mem_sortedMembers_of_sameMembers fs (Value.settled_obj_iff.1 hv).2 gs
        (Value.settled_obj_iff.1 hw).2 h.2
      have hperm : (Value.sortedMembers fs).Perm (Value.sortedMembers gs) :=
        (List.subperm_of_subset (Value.sortedMembers_names hv).1.of_map hsub).perm_of_length_le
          (by simp [h.1])
      rw [Value.sorted, Value.sorted, sortByName_eq_of_perm hperm hnames hcanon]
    | _ => simp [Value.sameAs] at h

theorem Value.sortedItems_eq_of_sameItems : ∀ xs : List Value, Value.settledItems xs = true →
    ∀ ys : List Value, Value.settledItems ys = true → Value.sameItems xs ys = true →
      Value.sortedItems xs = Value.sortedItems ys
  | [], _, [], _, _ => rfl
  | [], _, _ :: _, _, h => by simp [Value.sameItems] at h
  | _ :: _, _, [], _, h => by simp [Value.sameItems] at h
  | x :: xs, hx, y :: ys, hy, h => by
    rw [Value.settledItems, Bool.and_eq_true] at hx hy
    rw [Value.sameItems, Bool.and_eq_true] at h
    rw [Value.sortedItems, Value.sortedItems, Value.sorted_eq_of_sameAs x hx.1 y hy.1 h.1,
      Value.sortedItems_eq_of_sameItems xs hx.2 ys hy.2 h.2]

theorem Value.mem_sortedMembers_of_sameMembers : ∀ fs : List (String × Value), Value.settledMembers fs = true →
    ∀ gs : Fields, Value.settledMembers gs = true → Value.sameMembers fs gs = true →
      ∀ p ∈ Value.sortedMembers fs, p ∈ Value.sortedMembers gs
  | [], _, _, _, _ => fun _ hp => absurd hp List.not_mem_nil
  | (k, v) :: rest, hf, gs, hg, h => by
    simp only [Value.settledMembers, Bool.and_eq_true] at hf
    rw [Value.sameMembers, Bool.and_eq_true] at h
    obtain ⟨hk, hrest⟩ := h
    cases hw : Fields.get? gs k with
    | none => simp [hw] at hk
    | some w =>
      simp only [hw] at hk
      have hmem := Fields.mem_of_get? hw
      intro p hp
      rw [Value.sortedMembers, List.mem_cons] at hp
      rcases hp with rfl | hp
      · rw [Value.sorted_eq_of_sameAs v hf.1.2 w (Value.settled_of_mem_members hg hmem).2 hk,
          Value.sortedMembers_eq_map]
        exact List.mem_map.2 ⟨(k, w), hmem, rfl⟩
      · exact Value.mem_sortedMembers_of_sameMembers rest hf.2 gs hg hrest p hp

end

mutual

/-- **Settled values with one sorted form are equal as maps.** -/
theorem Value.sameAs_of_sorted_eq : ∀ v : Value, v.settled = true → ∀ w : Value, w.settled = true →
    v.sorted = w.sorted → v.sameAs w = true
  | .null, _, w, _, h | .bool _, _, w, _, h | .int _, _, w, _, h | .float _, _, w, _, h
  | .str _, _, w, _, h => by
    cases w <;> simp_all [Value.sameAs, Value.sorted]
  | .arr xs, hv, w, hw, h => by
    cases w with
    | arr ys =>
      rw [Value.settled] at hv hw
      rw [Value.sorted, Value.sorted, Value.arr.injEq] at h
      rw [Value.sameAs, Value.sameItems_of_sortedItems_eq xs hv ys hw h]
    | _ => simp [Value.sorted] at h
  | .obj fs, hv, w, hw, h => by
    cases w with
    | obj gs =>
      rw [Value.sorted, Value.sorted, Value.obj.injEq] at h
      rw [Value.settled_obj_iff] at hv hw
      -- the sorted members of both are one list, so each holds the other's
      have hperm : (Value.sortedMembers fs).Perm (Value.sortedMembers gs) :=
        (sortByName_perm _).symm.trans (h ▸ sortByName_perm _)
      have hlen : fs.length = gs.length := by simpa using hperm.length_eq
      rw [Value.sameAs, Bool.and_eq_true, beq_iff_eq]
      exact ⟨hlen, Value.sameMembers_of_mem_sortedMembers fs hv.2 gs hw.1 hw.2 fun p hp => hperm.subset hp⟩
    | _ => simp [Value.sorted] at h

theorem Value.sameItems_of_sortedItems_eq : ∀ xs : List Value, Value.settledItems xs = true →
    ∀ ys : List Value, Value.settledItems ys = true → Value.sortedItems xs = Value.sortedItems ys →
      Value.sameItems xs ys = true
  | [], _, [], _, _ => rfl
  | [], _, _ :: _, _, h => by simp [Value.sortedItems] at h
  | _ :: _, _, [], _, h => by simp [Value.sortedItems] at h
  | x :: xs, hx, y :: ys, hy, h => by
    rw [Value.settledItems, Bool.and_eq_true] at hx hy
    rw [Value.sortedItems, Value.sortedItems, List.cons.injEq] at h
    rw [Value.sameItems, Value.sameAs_of_sorted_eq x hx.1 y hy.1 h.1,
      Value.sameItems_of_sortedItems_eq xs hx.2 ys hy.2 h.2, Bool.and_self]

theorem Value.sameMembers_of_mem_sortedMembers : ∀ fs : List (String × Value),
    Value.settledMembers fs = true → ∀ gs : Fields, (gs.map Prod.fst).Nodup → Value.settledMembers gs = true →
      (∀ p ∈ Value.sortedMembers fs, p ∈ Value.sortedMembers gs) → Value.sameMembers fs gs = true
  | [], _, _, _, _, _ => rfl
  | (k, v) :: rest, hf, gs, hnames, hg, hsub => by
    simp only [Value.settledMembers, Bool.and_eq_true] at hf
    -- the member of `k` in `gs` has the same sorted form
    have hk := hsub (k, v.sorted) (by simp [Value.sortedMembers])
    rw [Value.sortedMembers_eq_map] at hk
    obtain ⟨⟨k', w⟩, hmem, hkw⟩ := List.mem_map.1 hk
    obtain ⟨rfl, hsorted⟩ := Prod.mk.inj hkw
    rw [Value.sameMembers, Fields.get?_of_mem_of_nodup hnames hmem]
    simp only
    rw [Value.sameAs_of_sorted_eq v hf.1.2 w (Value.settled_of_mem_members hg hmem).2 hsorted.symm,
      Value.sameMembers_of_mem_sortedMembers rest hf.2 gs hnames hg
        fun p hp => hsub p (List.mem_cons_of_mem _ hp), Bool.and_self]

end

theorem Value.sameAs_iff_sorted_eq {v w : Value} (hv : v.settled = true) (hw : w.settled = true) :
    v.sameAs w = true ↔ v.sorted = w.sorted :=
  ⟨Value.sorted_eq_of_sameAs v hv w hw, Value.sameAs_of_sorted_eq v hv w hw⟩

/-! ## The canonical text and the workflow hash -/

/-- **Two settled values have one canonical text exactly when they are equal
as maps**, and then they have one workflow hash. -/
theorem canonicalText_eq_iff_sameAs {v w : Value} (hv : v.settled = true) (hw : w.settled = true) :
    (v.render Layout.canonical = w.render Layout.canonical ↔ v.sameAs w = true) ∧
      (v.sameAs w = true → workflowHash v = workflowHash w) := by
  have hiff : v.render Layout.canonical = w.render Layout.canonical ↔ v.sameAs w = true := by
    rw [Value.sameAs_iff_sorted_eq hv hw]
    refine ⟨sorted_eq_of_render hv hw, fun h => ?_⟩
    rw [render_canonical, render_canonical, h]
  refine ⟨hiff, fun h => ?_⟩
  rw [workflowHash, workflowHash, Value.textBy_of_writable (Value.writable_of_settled _ hv),
    Value.textBy_of_writable (Value.writable_of_settled _ hw), hiff.2 h]

/-- Two objects whose members, and the members of an object within, are
written in other orders have one canonical text and one workflow hash. -/
theorem canonicalText_reordered_members :
    let v : Value := .obj [("b", .obj [("y", .arr [.int 1, .bool true]), ("x", .null)]), ("a", .int 2)]
    let w : Value := .obj [("a", .int 2), ("b", .obj [("x", .null), ("y", .arr [.int 1, .bool true])])]
    v.settled = true ∧ w.settled = true ∧ v.sameAs w = true ∧
      v.render Layout.canonical = w.render Layout.canonical ∧ workflowHash v = workflowHash w := by
  intro v w
  have hnames : ∀ s ∈ ["a", "b", "x", "y"], Text.settled s = true := by
    intro s hs
    simp only [List.mem_cons, List.not_mem_nil, or_false] at hs
    rcases hs with rfl | rfl | rfl | rfl <;> exact Text.settled_ascii (by simp)
  have hv : v.settled = true := by
    simp (disch := simp) only [v, Value.settled, Value.settledMembers, Value.settledItems, hnames]
    decide
  have hw : w.settled = true := by
    simp (disch := simp) only [w, Value.settled, Value.settledMembers, Value.settledItems, hnames]
    decide
  have hsame : v.sameAs w = true := by
    simp [v, w, Value.sameAs, Value.sameMembers, Value.sameItems, Fields.get?]
  obtain ⟨hiff, hhash⟩ := canonicalText_eq_iff_sameAs hv hw
  exact ⟨hv, hw, hsame, hiff.2 hsame, hhash hsame⟩

/-! ## A high half before a low half -/

/-- **A high half followed by a low half is escaped in ASCII as the character
the pair encodes.** -/
theorem escapeCode_pairCode {hi lo : Nat} (hh : 0xD800 ≤ hi ∧ hi < 0xDC00) (hl : 0xDC00 ≤ lo ∧ lo < 0xE000) :
    escapeCode true hi ++ escapeCode true lo = escapeCode true (Text.pairCode hi lo) := by
  have hsurrogate : ∀ n, 0xD800 ≤ n ∧ n < 0xE000 → n ∉ Reader.letterCodes ∧ Text.isSurrogateCode n = true := by
    intro n hn
    refine ⟨by simp only [Reader.letterCodes, List.mem_cons, List.not_mem_nil, or_false]; omega, ?_⟩
    unfold Text.isSurrogateCode Text.surrogateBase Text.surrogateCount
    simp only [Bool.and_eq_true, decide_eq_true_eq]
    omega
  obtain ⟨hhl, hhs⟩ := hsurrogate hi ⟨hh.1, by omega⟩
  obtain ⟨hll, hls⟩ := hsurrogate lo ⟨by omega, hl.2⟩
  -- the pair's code point lies past the basic plane
  have hcode : Text.pairCode hi lo ∉ Reader.letterCodes ∧ ¬Text.isSurrogateCode (Text.pairCode hi lo) = true ∧
      ¬Text.pairCode hi lo < 0x10000 := by
    unfold Text.isSurrogateCode Text.surrogateBase Text.surrogateCount Text.pairCode
    simp only [Reader.letterCodes, List.mem_cons, List.not_mem_nil, or_false, Bool.and_eq_true,
      decide_eq_true_eq]
    omega
  have hhigh : 0xD800 + (Text.pairCode hi lo - 0x10000) / 0x400 = hi := by unfold Text.pairCode; omega
  have hlow : 0xDC00 + (Text.pairCode hi lo - 0x10000) % 0x400 = lo := by unfold Text.pairCode; omega
  rw [← String.toList_inj, String.toList_append, Reader.escapeCode_unit hhl (.inl hhs),
    Reader.escapeCode_unit hll (.inl hls), Reader.escapeCode_astral hcode.1 hcode.2.1 hcode.2.2, hhigh, hlow]
  rfl

/-- **The canonical text does not tell a text holding a high half right before
a low half from a text holding the character they encode**, though the two are
different values. -/
theorem canonicalText_joins_split_pair :
    let split : Value := .obj [("a", .str (String.ofList [Text.ofSurrogate 0xD83D, Text.ofSurrogate 0xDE00]))]
    let joined : Value := .obj [("a", .str (String.ofList [Char.ofNat 0x1F600]))]
    split.render Layout.canonical = joined.render Layout.canonical ∧ split.sameAs joined = false := by
  intro split joined
  have hsplit : Text.codePoints [Text.ofSurrogate 0xD83D, Text.ofSurrogate 0xDE00] = [0xD83D, 0xDE00] := by
    simp [Text.codePoints, Text.codeOf, Text.surrogate?, Text.ofSurrogate, Text.holdMark, Text.standInBase,
      Text.surrogateBase, Text.surrogateCount]
  have hjoined : Text.codePoints [Char.ofNat 0x1F600] = [Text.pairCode 0xD83D 0xDE00] := by
    rw [Text.codePoints, Text.codeOf, Text.surrogate?, Text.toNat_ofNat_of_valid (by decide)]
    decide
  have hquote : quote true (String.ofList [Text.ofSurrogate 0xD83D, Text.ofSurrogate 0xDE00]) =
      quote true (String.ofList [Char.ofNat 0x1F600]) := by
    rw [quote, quote, String.toList_ofList, String.toList_ofList, hsplit, hjoined]
    simp only [List.map_cons, List.map_nil]
    rw [← escapeCode_pairCode (by decide) (by decide), ← String.toList_inj]
    simp only [String.toList_append, String.toList_join, List.flatMap_cons, List.flatMap_nil, List.append_nil]
  have hne : String.ofList [Text.ofSurrogate 0xD83D, Text.ofSurrogate 0xDE00] ≠
      String.ofList [Char.ofNat 0x1F600] := fun h => by
    simpa using congrArg String.toList h
  have hget : Fields.get? [("a", Value.str (String.ofList [Char.ofNat 0x1F600]))] "a" =
      some (.str (String.ofList [Char.ofNat 0x1F600])) := by
    simp [Fields.get?]
  refine ⟨?_, ?_⟩
  · simp only [split, joined, Value.render, Writer.value, Writer.members]
    rw [show Layout.canonical.asciiOnly = true from rfl, hquote]
  · simp only [split, joined, Value.sameAs, Value.sameMembers, hget, beq_eq_false_iff_ne.2 hne, Bool.false_and,
      Bool.and_false]

end Json

end NodeFlow
