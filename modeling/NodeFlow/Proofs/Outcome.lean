import Mathlib.Data.List.Forall2
import NodeFlow.Error
/-!
# Computations that may fail

Most steps of the model give an `Outcome`: a result, or the failure the program
raises. A bind succeeds only when both of its parts do
(`exists_of_bind_eq_ok`, `exists_of_map_eq_ok`). A map over a list succeeds exactly when the
computation succeeds on every item, pairing each item with its image
(`mapM_forall₂`, `mapM_ok_of_forall`, `exists_preimage_of_mapM_ok`), and otherwise fails with the failure of
the first item that fails (`mapM_error`). A filtering map is the map with the
absent images dropped (`filterMapM_eq_map_mapM`).

Writing a number out is bounded as reading it is: an integer of more than
`Decimal.maxIntegerDigits` digits has no decimal text (`integerText_of_too_long`),
and a value holding one is written out neither as message text nor as JSON
(`Value.textBy_eq_ok`).
-/

namespace NodeFlow

/-! ## Binds and maps over lists -/

section Lists

variable {ε α β : Type}

/-- A computation that ends with a result ran its first part to one. -/
theorem exists_of_bind_eq_ok {x : Except ε α} {f : α → Except ε β} {b : β}
    (h : (x >>= f) = .ok b) : ∃ a, x = .ok a ∧ f a = .ok b := by
  cases x with
  | error e => cases h
  | ok a => exact ⟨a, rfl, h⟩

theorem exists_of_map_eq_ok {x : Except ε α} {f : α → β} {b : β} (h : f <$> x = .ok b) :
    ∃ a, x = .ok a ∧ f a = b := by
  cases x with
  | error e => cases h
  | ok a => exact ⟨a, rfl, Except.ok.inj h⟩

/-- A map that succeeds pairs every item with its image. -/
theorem mapM_forall₂ {f : α → Except ε β} :
    ∀ {l : List α} {l' : List β}, l.mapM f = .ok l' → List.Forall₂ (fun a b => f a = .ok b) l l'
  | [], _, h => by
    cases h
    exact .nil
  | a :: l, l', h => by
    rw [List.mapM_cons] at h
    obtain ⟨b, ha, h⟩ := exists_of_bind_eq_ok h
    obtain ⟨bs, hl, h⟩ := exists_of_bind_eq_ok h
    cases h
    exact .cons ha (mapM_forall₂ hl)

/-- Every image a map gives is the image of an item. -/
theorem exists_preimage_of_mapM_ok {f : α → Except ε β} {l : List α} {l' : List β} {b : β}
    (h : l.mapM f = .ok l') (hb : b ∈ l') : ∃ a ∈ l, f a = .ok b := by
  have hall := mapM_forall₂ h
  clear h
  induction hall with
  | nil => cases hb
  | @cons a b' _ _ hab _ ih =>
    rcases List.mem_cons.1 hb with rfl | hb
    · exact ⟨a, List.mem_cons_self, hab⟩
    · obtain ⟨a', ha', hfa'⟩ := ih hb
      exact ⟨a', List.mem_cons_of_mem _ ha', hfa'⟩

/-- Every item of a map that succeeds has its image among the images. -/
theorem exists_image_of_mapM_ok {f : α → Except ε β} {l : List α} {l' : List β} {a : α}
    (h : l.mapM f = .ok l') (ha : a ∈ l) : ∃ b ∈ l', f a = .ok b := by
  have hall := mapM_forall₂ h
  clear h
  induction hall with
  | nil => cases ha
  | @cons a' b _ _ hab _ ih =>
    rcases List.mem_cons.1 ha with rfl | ha
    · exact ⟨b, List.mem_cons_self, hab⟩
    · obtain ⟨b', hb', hfb'⟩ := ih ha
      exact ⟨b', List.mem_cons_of_mem _ hb', hfb'⟩

/-- Every image a map gives has what each single computation on a member of
the list guarantees. -/
theorem mapM_forall_ok_of_mem {f : α → Except ε β} {p : β → Prop} {l : List α} {l' : List β}
    (hf : ∀ a ∈ l, ∀ b, f a = .ok b → p b) (h : l.mapM f = .ok l') : ∀ b ∈ l', p b := by
  intro b hb
  obtain ⟨a, ha, hab⟩ := exists_preimage_of_mapM_ok h hb
  exact hf a ha b hab

/-- A map succeeds when the computation succeeds on every item. -/
theorem mapM_ok_of_forall {f : α → Except ε β} :
    ∀ {l : List α}, (∀ a ∈ l, ∃ b, f a = .ok b) → ∃ l', l.mapM f = .ok l'
  | [], _ => ⟨[], rfl⟩
  | a :: l, h => by
    obtain ⟨b, hb⟩ := h a List.mem_cons_self
    obtain ⟨l', hl⟩ := mapM_ok_of_forall fun x hx => h x (List.mem_cons_of_mem a hx)
    exact ⟨b :: l', by rw [List.mapM_cons, hb, hl]; rfl⟩

/-- A map whose every item gives its image gives the images. -/
theorem mapM_eq_ok_map {f : α → Except ε β} {g : α → β} :
    ∀ {l : List α}, (∀ a ∈ l, f a = .ok (g a)) → l.mapM f = .ok (l.map g)
  | [], _ => rfl
  | a :: l, h => by
    rw [List.mapM_cons, h a List.mem_cons_self, mapM_eq_ok_map fun x hx => h x (List.mem_cons_of_mem a hx)]
    rfl

/-- A map fails when one item does, with the failure of the first item that
fails. -/
theorem mapM_error {f : α → Except ε β} {a : α} {e : ε} :
    ∀ {l : List α}, a ∈ l → f a = .error e → ∃ a' ∈ l, ∃ e', f a' = .error e' ∧ l.mapM f = .error e'
  | x :: xs, ha, hfa => by
    cases hfx : f x with
    | error e' => exact ⟨x, List.mem_cons_self, e', hfx, by rw [List.mapM_cons, hfx]; rfl⟩
    | ok y =>
      -- the head succeeds, so the failing item is among the rest
      have hxs : a ∈ xs := (List.mem_cons.1 ha).resolve_left fun hax => by rw [hax, hfx] at hfa; cases hfa
      obtain ⟨a', ha', e', hfa', hrest⟩ := mapM_error hxs hfa
      exact ⟨a', List.mem_cons_of_mem _ ha', e', hfa', by rw [List.mapM_cons, hfx, hrest]; rfl⟩

/-- **A filtering map is the map with the absent images dropped.** -/
theorem filterMapM_eq_map_mapM {f : α → Except ε (Option β)} :
    ∀ l : List α, l.filterMapM f = (·.reduceOption) <$> l.mapM f
  | [] => rfl
  | a :: l => by
    rw [List.filterMapM_cons, List.mapM_cons, filterMapM_eq_map_mapM l]
    cases f a with
    | error e => rfl
    | ok o =>
      cases l.mapM f with
      | error e => cases o <;> rfl
      | ok os => cases o <;> rfl

end Lists

/-! ## Integers too long to write -/

section Writing

variable {n : Int} {t : String}

theorem integerText_of_digits (h : (toString n.natAbs).length ≤ Decimal.maxIntegerDigits) :
    integerText n = .ok (toString n) := by
  unfold integerText
  rw [if_neg (Nat.not_lt.2 h)]

theorem integerText_of_too_long (h : Decimal.maxIntegerDigits < (toString n.natAbs).length) :
    integerText n = .error .tooManyDigitsToWrite := by
  unfold integerText
  rw [if_pos h]

theorem integerText_eq (h : integerText n = .ok t) : t = toString n := by
  unfold integerText at h
  split at h
  · cases h
  · cases h
    rfl

/-- A value is written out exactly when every integer in it can be. -/
theorem Json.Value.textBy_eq_ok {write : Json.Value → String} {v : Json.Value} :
    v.textBy write = .ok t ↔ Issue.writable v = true ∧ write v = t := by
  unfold Json.Value.textBy
  by_cases hw : Issue.writable v = true
  · simp [hw]
  · simp [hw]

theorem Json.Value.textBy_of_writable {write : Json.Value → String} {v : Json.Value}
    (h : Issue.writable v = true) : v.textBy write = .ok (write v) :=
  Json.Value.textBy_eq_ok.2 ⟨h, rfl⟩

end Writing

end NodeFlow
