import NodeFlow.Proofs.Layout.Sources
import NodeFlow.Proofs.Layout.Walk
/-!
# Reroutes are transparent to layout import

A reroute node only passes a link through. Putting a new reroute in the middle
of a link therefore changes nothing the importer makes, as long as no chain
from an input slot to the node that produces its value grows past
`maxRerouteHops` links, and the reroute and its new link are fresh and the new
link's id is not negative (`importLayout_addReroute`).

In the read document, the new reroute is a detour through the new link
(`FreshReroute.detour`), so every link resolves as before and the new link as
the old one did (`FreshReroute.resolveSource_old`,
`FreshReroute.resolveSource_new`). Each saved node then imports the same
(`FreshReroute.node_eq`), and so does the whole document
(`FreshReroute.toGraph_eq`). The saved layout with the reroute reads as the
read document with it (`ofFields_addReroute`), up to the document's own
fields, of which import reads only the groups.
-/

namespace NodeFlow

open Json

/-! ## Setting a key of a list of pairs -/

section SetKey

variable {κ α : Type} [BEq κ] [LawfulBEq κ] [DecidableEq κ]

theorem find?_map_of_keys {f : κ × α → κ × α} (hf : ∀ p, (f p).1 = p.1) (m : List (κ × α)) (k : κ) :
    (m.map f).find? (·.1 == k) = (m.find? (·.1 == k)).map f := by
  induction m with
  | nil => rfl
  | cons p m ih =>
    by_cases hp : p.1 = k
    · simp [hf, hp]
    · simp [hf, hp, ih]

/-- Setting key `k` to `v`, in place or at the end, gives `v` at `k` and keeps
the first entry of every other key. -/
theorem find?_setKey (m : List (κ × α)) (k k' : κ) (v : α) :
    ((if m.any (·.1 == k) then m.map (fun p => if p.1 == k then (k, v) else p) else m ++ [(k, v)]).find?
        (·.1 == k')).map (·.2) = if k' = k then some v else (m.find? (·.1 == k')).map (·.2) := by
  split
  · rename_i hany
    rw [find?_map_of_keys (fun p => by split <;> simp_all)]
    split
    · -- the first entry of `k` is there, and now holds `v`
      subst k'
      obtain ⟨q, hq, hqk⟩ := List.any_eq_true.1 hany
      obtain ⟨q', hq'⟩ : ∃ q', m.find? (·.1 == k) = some q' :=
        Option.isSome_iff_exists.1 (List.find?_isSome.2 ⟨q, hq, hqk⟩)
      have hk := List.find?_some hq'
      simp only [beq_iff_eq] at hk
      simp [hq', hk]
    · rename_i hne
      cases hf : m.find? (·.1 == k') with
      | none => rfl
      | some q =>
        have hk := List.find?_some hf
        simp only [beq_iff_eq] at hk
        simp [hk, hne]
  · -- no entry of `k`: the new one goes last
    rename_i hany
    rw [List.find?_append]
    split
    · subst k'
      have hnone : m.find? (·.1 == k) = none := List.find?_eq_none.2 fun q hq hqk =>
        hany (List.any_eq_true.2 ⟨q, hq, hqk⟩)
      simp [hnone]
    · rename_i hne
      simp [Ne.symm hne]

end SetKey

/-- A fold that succeeds succeeds the same over the images of its items, when
each image is stepped over as the item was. -/
theorem foldlM_map_of_step {α β γ ε : Type} {f : β → α → Except ε β} {g : β → γ → Except ε β} {e : α → γ}
    (l : List α) (hstep : ∀ a ∈ l, ∀ b b', f b a = .ok b' → g b (e a) = .ok b') :
    ∀ (b res : β), l.foldlM f b = .ok res → (l.map e).foldlM g b = .ok res := by
  induction l with
  | nil =>
    intro b res h
    exact h
  | cons a l ih =>
    intro b res h
    rw [List.foldlM_cons] at h
    obtain ⟨b', hb', h⟩ := exists_of_bind_eq_ok h
    rw [List.map_cons, List.foldlM_cons, hstep a (by simp) b b' hb']
    exact ih (fun a ha => hstep a (by simp [ha])) b' res h

theorem Json.Fields.get?_insert (fs : Fields) (k k' : String) (v : Value) :
    (fs.insert k v).get? k' = if k' = k then some v else fs.get? k' := by
  unfold Fields.insert Fields.get? Fields.has
  exact find?_setKey fs k k' v

namespace Layout

theorem IntMap.get?_put {α : Type} (m : IntMap α) (k k' : Int) (v : α) :
    IntMap.get? (m.put k v) k' = if k' = k then some v else IntMap.get? m k' := by
  unfold IntMap.put IntMap.get?
  exact find?_setKey m k k' v

theorem IntMap.get?_map {α : Type} (m : IntMap α) (g : Int → α → α) (k : Int) :
    IntMap.get? (m.map fun p => (p.1, g p.1 p.2)) k = (IntMap.get? m k).map (g k) := by
  unfold IntMap.get?
  rw [find?_map_of_keys (f := fun p => (p.1, g p.1 p.2)) (fun _ => rfl)]
  cases hf : m.find? (·.1 == k) with
  | none => rfl
  | some q =>
    have hk := List.find?_some hf
    simp only [beq_iff_eq] at hk
    simp [hk]

theorem IntMap.put_of_get?_none {α : Type} {m : IntMap α} {k : Int} (h : IntMap.get? m k = none) (v : α) :
    m.put k v = m ++ [(k, v)] := by
  unfold IntMap.put
  rw [if_neg]
  intro hany
  obtain ⟨p, hp, hpk⟩ := List.any_eq_true.1 hany
  obtain ⟨q, hq⟩ : ∃ q, m.find? (·.1 == k) = some q :=
    Option.isSome_iff_exists.1 (List.find?_isSome.2 ⟨p, hp, hpk⟩)
  simp [IntMap.get?, hq] at h

theorem IntMap.mem_put {α : Type} {m : IntMap α} {k : Int} {v : α} {p : Int × α} (h : p ∈ m.put k v) :
    p ∈ m ∨ p = (k, v) := by
  unfold IntMap.put at h
  split at h
  · obtain ⟨q, hq, rfl⟩ := List.mem_map.1 h
    split
    · exact Or.inr rfl
    · exact Or.inl hq
  · simpa using h

/-- Putting a key where it is already: every entry of that key takes the value. -/
theorem IntMap.put_of_isSome {α : Type} {m : IntMap α} {k : Int} (h : (IntMap.get? m k).isSome) (v : α) :
    m.put k v = m.map fun p => (p.1, if p.1 = k then v else p.2) := by
  have hany : m.any (·.1 == k) = true := by
    obtain ⟨q, hq⟩ := Option.isSome_iff_exists.1 h
    obtain ⟨p, hp, -⟩ := Option.map_eq_some_iff.1 hq
    have hk := List.find?_some hp
    exact List.any_eq_true.2 ⟨p, List.mem_of_find?_eq_some hp, hk⟩
  unfold IntMap.put
  rw [if_pos hany]
  refine List.map_congr_left fun p _ => ?_
  by_cases hp : p.1 = k
  · simp [hp]
  · simp [hp]

/-- A map of the values, by key, commutes with putting a key. -/
theorem IntMap.map_put {α : Type} (m : IntMap α) (k : Int) (v : α) (g : Int → α → α) :
    (m.put k v).map (fun p => (p.1, g p.1 p.2)) = IntMap.put (m.map fun p => (p.1, g p.1 p.2)) k (g k v) := by
  unfold IntMap.put
  have hany : (m.map fun p => (p.1, g p.1 p.2)).any (·.1 == k) = m.any (·.1 == k) := by
    simp [List.any_map, Function.comp_def]
  rw [hany]
  split
  · simp only [List.map_map]
    refine List.map_congr_left fun p _ => ?_
    by_cases hp : p.1 = k
    · simp [hp]
    · simp [hp]
  · simp

/-! ## Putting a reroute on a link -/

/-- An input slot moved from link `x` to link `x'`; a slot on another link stays. -/
def relinkSlot (x x' : Int) (slot : Fields) : Fields :=
  if slotLink slot = x then slot.insert "link" (.int x') else slot

/-- An item of a saved node's `inputs`, moved from link `x` to link `x'`. -/
def relinkItem (x x' : Int) : Value → Value
  | .obj slot => .obj (relinkSlot x x' slot)
  | v => v

/-- A saved node whose input slots on link `x` take link `x'` instead. -/
def relink (x x' : Int) (raw : Fields) : Fields :=
  match Fields.get? raw "inputs" with
  | some (.arr items) => raw.insert "inputs" (.arr (items.map (relinkItem x x')))
  | _ => raw

/-- The saved node under key `k`, relinked when `k` is the target of the row `l`. -/
def relinkTarget (x : Int) (l : Link) (x' k : Int) (raw : Fields) : Fields :=
  if k = l.target then relink x x' raw else raw

/-- A reroute saved with id `r`, its one input slot taking link `x`. -/
def rerouteNode (r x : Int) : Fields :=
  [("id", .int r), ("type", .str "Reroute"), ("inputs", .arr [.obj [("name", .str ""), ("link", .int x)]])]

theorem slotLink_relinkSlot (x x' : Int) (slot : Fields) :
    slotLink (relinkSlot x x' slot) = if slotLink slot = x then x' else slotLink slot := by
  unfold relinkSlot
  split
  · simp [slotLink, Fields.get?_insert, asInt?]
  · rfl

theorem get?_relinkSlot (x x' : Int) (slot : Fields) {k : String} (hk : k ≠ "link") :
    Fields.get? (relinkSlot x x' slot) k = Fields.get? slot k := by
  unfold relinkSlot
  split
  · rw [Fields.get?_insert, if_neg hk]
  · rfl

theorem get?_relink (x x' : Int) (raw : Fields) {k : String} (hk : k ≠ "inputs") :
    Fields.get? (relink x x' raw) k = Fields.get? raw k := by
  unfold relink
  split
  · rw [Fields.get?_insert, if_neg hk]
  · rfl

theorem nodeType_relink (x x' : Int) (raw : Fields) : nodeType (relink x x' raw) = nodeType raw := by
  unfold nodeType
  rw [get?_relink x x' raw (by decide)]

theorem filterMap_relinkItem (x x' : Int) (items : List Value) :
    items.filterMap (fun v => (relinkItem x x' v).fields?) = (items.filterMap Value.fields?).map (relinkSlot x x') := by
  induction items with
  | nil => rfl
  | cons v items ih =>
    rw [List.filterMap_cons, List.filterMap_cons, ih]
    cases v <;> rfl

/-- Relinking moves the slots on link `x` and keeps the others. -/
theorem inputSlots_relink (x x' : Int) (raw : Fields) :
    inputSlots (relink x x' raw) = (inputSlots raw).map (List.map (relinkSlot x x')) := by
  unfold relink
  cases h : Fields.get? raw "inputs" with
  | none => simp [inputSlots, h, Value.truthy, Except.map, pure, Except.pure, bind, Except.bind]
  | some v =>
    cases v with
    | arr items =>
      by_cases hi : items = [] <;> simp [inputSlots, h, hi, Fields.get?_insert, Value.truthy, Value.elements,
        filterMap_relinkItem, Except.map, pure, Except.pure, bind, Except.bind]
    | _ =>
      simp only [inputSlots, h, Option.getD_some]
      split <;> simp [Value.elements, Value.fields?, Function.comp_def, Except.map, pure, Except.pure,
        bind, Except.bind] <;> split <;> simp_all

/-- An input slot of a saved node and the slot it is after the reroute: its
name kept, its link kept or moved from `x` to `x'`. -/
def SlotMoved (x x' : Int) (s s' : Fields) : Prop :=
  Fields.get? s' "name" = Fields.get? s "name" ∧ (slotLink s' = slotLink s ∨ slotLink s = x ∧ slotLink s' = x')

theorem slotMoved_refl (x x' : Int) (s : Fields) : SlotMoved x x' s s := ⟨rfl, Or.inl rfl⟩

theorem slotMoved_relinkSlot (x x' : Int) (s : Fields) : SlotMoved x x' s (relinkSlot x x' s) := by
  refine ⟨get?_relinkSlot x x' s (by decide), ?_⟩
  rw [slotLink_relinkSlot]
  split
  · exact Or.inr ⟨by assumption, rfl⟩
  · exact Or.inl rfl

/-- A saved node and the node it is after the reroute: its input slots moved
one by one as `SlotMoved` says, its other fields kept. -/
structure NodeMoved (x x' : Int) (raw raw' : Fields) : Prop where
  get : ∀ k, k ≠ "inputs" → Fields.get? raw' k = Fields.get? raw k
  slots : ∃ g : Fields → Fields, inputSlots raw' = (inputSlots raw).map (List.map g) ∧ ∀ s, SlotMoved x x' s (g s)

theorem nodeMoved_refl (x x' : Int) (raw : Fields) : NodeMoved x x' raw raw where
  get _ _ := rfl
  slots := ⟨id, by cases inputSlots raw <;> simp [Except.map], slotMoved_refl x x'⟩

theorem nodeMoved_relink (x x' : Int) (raw : Fields) : NodeMoved x x' raw (relink x x' raw) where
  get _ hk := get?_relink x x' raw hk
  slots := ⟨relinkSlot x x', inputSlots_relink x x' raw, slotMoved_relinkSlot x x'⟩

theorem NodeMoved.nodeType_eq {x x' : Int} {raw raw' : Fields} (hm : NodeMoved x x' raw raw') : nodeType raw' = nodeType raw := by
  unfold nodeType
  rw [hm.get "type" (by decide)]

theorem NodeMoved.note_eq {x x' : Int} {raw raw' : Fields} (hm : NodeMoved x x' raw raw') (id : Int) :
    Document.note id raw' = Document.note id raw := by
  unfold Document.note
  rw [hm.get "title" (by decide), hm.get "widgets_values" (by decide)]

theorem nodeType_rerouteNode (r x : Int) : nodeType (rerouteNode r x) = "Reroute" := by
  simp [nodeType, rerouteNode, Fields.get?]

theorem inputSlots_rerouteNode (r x : Int) :
    inputSlots (rerouteNode r x) = .ok [[("name", .str ""), ("link", .int x)]] := by
  simp [inputSlots, rerouteNode, Fields.get?, Value.truthy, Value.elements, Value.fields?, bind, Except.bind,
    pure, Except.pure]

namespace Document

variable {d : Document}

/-- The document with link `x`, the row `l`, passed through a new reroute `r`:
the row now ends at the reroute's input slot, and a new link `x'` from the
reroute's output 0 takes the row's place in the input slots of its target. -/
def rerouteLink (d : Document) (x : Int) (l : Link) (r x' : Int) : Document where
  fields := d.fields
  links := (d.links.put x { l with target := r, targetSlot := 0 }).put x' ⟨x', r, 0, l.target, l.targetSlot⟩
  nodes := IntMap.put (d.nodes.map fun p => (p.1, relinkTarget x l x' p.1 p.2)) r
    (rerouteNode r x)

/-! ## Links through the new reroute -/

variable {x x' r : Int} {l : Link}

theorem get?_rerouteLink_links (y : Int) :
    IntMap.get? (d.rerouteLink x l r x').links y =
      if y = x' then some ⟨x', r, 0, l.target, l.targetSlot⟩
      else if y = x then some { l with target := r, targetSlot := 0 } else IntMap.get? d.links y := by
  simp only [rerouteLink, IntMap.get?_put]

theorem get?_rerouteLink_nodes (s : Int) :
    IntMap.get? (d.rerouteLink x l r x').nodes s =
      if s = r then some (rerouteNode r x)
      else (IntMap.get? d.nodes s).map (relinkTarget x l x' s) := by
  dsimp only [rerouteLink]
  rw [IntMap.get?_put, IntMap.get?_map]

/-- The new reroute passes a walk on to link `x`, and ends it when `x` is negative. -/
theorem hopFrom_rerouteLink_self (slot : Int) :
    (d.rerouteLink x l r x').hopFrom r slot = if x < 0 then .done (.ok none) else .next x := by
  have hlink : slotLink [("name", .str ""), ("link", .int x)] = x := by simp [slotLink, Fields.get?, asInt?]
  simp [hopFrom, get?_rerouteLink_nodes, nodeType_rerouteNode, inputSlots_rerouteNode, hlink, rerouteTypes]

/-- Every other node hops as before, except a reroute whose first input slot
moved to `x'`: that one hops to `x'`, where it hopped as the new reroute does. -/
theorem hopFrom_rerouteLink {src : Int} (hsrc : src ≠ r) (hx' : 0 ≤ x') (slot : Int) :
    (d.rerouteLink x l r x').hopFrom src slot = d.hopFrom src slot ∨
      (d.hopFrom src slot = (if x < 0 then .done (.ok none) else .next x) ∧
        (d.rerouteLink x l r x').hopFrom src slot = .next x') := by
  unfold hopFrom
  rw [get?_rerouteLink_nodes, if_neg hsrc]
  cases hn : IntMap.get? d.nodes src with
  | none => exact Or.inl rfl
  | some raw =>
    by_cases hB : src = l.target
    · simp only [Option.map_some, relinkTarget, if_pos hB, nodeType_relink, inputSlots_relink]
      split
      · exact Or.inl rfl
      · cases hs : inputSlots raw with
        | error e => exact Or.inl rfl
        | ok slots =>
          cases slots with
          | nil => exact Or.inl rfl
          | cons first rest =>
            simp only [Except.map, List.map_cons, slotLink_relinkSlot]
            by_cases hf : slotLink first = x
            · -- the reroute's own input was on link `x`, and now takes `x'`
              simp [hf, Int.not_lt.2 hx']
            · simp [hf]
    · simp only [Option.map_some, relinkTarget, if_neg hB, true_or]

/-- The links of a document that no input slot of a saved node takes. -/
def FreeLink (d : Document) (y : Int) : Prop :=
  ∀ p ∈ d.nodes, ∀ slots, inputSlots p.2 = .ok slots → ∀ s ∈ slots, slotLink s ≠ y

/-- What a reroute put on link `x`, the row `l`, needs to be new: the id `r` of
no saved node and the source of no link, and a link id `x'` that is no row of
the table and no slot's link, and not negative. -/
structure FreshReroute (d : Document) (x : Int) (l : Link) (r x' : Int) : Prop where
  link : IntMap.get? d.links x = some l
  unsaved : IntMap.get? d.nodes r = none
  unsourced : ∀ y l', IntMap.get? d.links y = some l' → l'.source ≠ r
  unlisted : IntMap.get? d.links x' = none
  nonneg : 0 ≤ x'
  untaken : d.FreeLink x'

theorem FreshReroute.ne (hf : d.FreshReroute x l r x') : x ≠ x' := by
  intro h
  have hrow := hf.unlisted
  rw [← h, hf.link] at hrow
  cases hrow

/-- **The new reroute is a detour through link `x'`.** -/
theorem FreshReroute.detour (hf : d.FreshReroute x l r x') :
    Detour d.hop (d.rerouteLink x l r x').hop x' (if x < 0 then .done (.ok none) else .next x) where
  new := by
    simp only [hop, get?_rerouteLink_links]
    exact hopFrom_rerouteLink_self 0
  unreached := by
    intro y hy
    obtain ⟨l', raw, first, rest, -, hraw, -, hslots, -, hfirst⟩ := hop_eq_next hy
    exact hf.untaken _ (IntMap.mem_of_get? hraw) _ hslots first (by simp) hfirst
  old := by
    intro y hy
    -- the link keeps its source, which is not the new reroute
    unfold hop
    rw [get?_rerouteLink_links, if_neg hy]
    by_cases hyx : y = x
    · subst hyx
      rw [if_pos rfl, hf.link]
      exact hopFrom_rerouteLink (hf.unsourced _ _ hf.link) hf.nonneg _
    · rw [if_neg hyx]
      cases hl : IntMap.get? d.links y with
      | none => exact Or.inl rfl
      | some l' => exact hopFrom_rerouteLink (hf.unsourced _ _ hl) hf.nonneg _

/-! ## Walks through the new reroute -/

/-- Every chain of `d` from link `y` to a node's output spans at most
`maxRerouteHops` links. -/
def HopsBounded (d : Document) (y : Int) : Prop := ∀ k p, d.Leads y k p → k ≤ maxRerouteHops

/-- A chain that ends within the bound bounds every chain from its link. -/
theorem hopsBounded_of_ends {y : Int} {k : Nat} {r : Outcome (Option (Int × Int))} (h : Ends d.hop y k r)
    (hk : k ≤ maxRerouteHops) : d.HopsBounded y := fun _ _ hl => by
  obtain ⟨rfl, -⟩ := hl.ends.unique h
  exact hk

/-- A link other than `x'` resolves as before. -/
theorem FreshReroute.resolveSource_old (hf : d.FreshReroute x l r x') {y : Int} {o : Option (Int × Int)}
    (hy : y ≠ x') (h : d.resolveSource y = .ok o) (hb : (d.rerouteLink x l r x').HopsBounded y) :
    (d.rerouteLink x l r x').resolveSource y = .ok o := by
  rw [resolveSource_eq_followLinks] at h ⊢
  exact hf.detour.followLinks_eq hy h (Nat.le_refl _) (fun k p hk => hb k p (leads_of_ends hk rfl)) (by simp)

/-- The new link `x'` resolves as `x` did, one link later. -/
theorem FreshReroute.resolveSource_new (hf : d.FreshReroute x l r x') (hx : 0 ≤ x) {o : Option (Int × Int)}
    (h : d.resolveSource x = .ok o) (hb : (d.rerouteLink x l r x').HopsBounded x') :
    (d.rerouteLink x l r x').resolveSource x' = .ok o := by
  have hnext : (d.rerouteLink x l r x').hop x' = .next x := by rw [hf.detour.new, if_neg (Int.not_lt.2 hx)]
  rw [resolveSource_eq_followLinks] at h ⊢
  rw [show maxRerouteHops = 63 + 1 from rfl, followLinks, hnext]
  simp only [List.contains_nil, Bool.false_eq_true, if_false]
  -- the walk goes on from `x` with `x'` seen, which no chain from `x` comes back to
  refine hf.detour.followLinks_eq hf.ne h (by decide) (fun k p hk => ?_) ?_
  · have := hb (k + 1) p (leads_of_ends (.next hnext hk) rfl)
    unfold maxRerouteHops at this
    omega
  · intro k r' hk y hy n hreach
    rw [List.mem_singleton] at hy
    subst hy
    exact Ends.not_reaches_of_next hnext hk hreach

/-- The new link `x'` ends its walk at once when `x` is negative. -/
theorem FreshReroute.resolveSource_new_neg (hf : d.FreshReroute x l r x') (hx : x < 0) :
    (d.rerouteLink x l r x').resolveSource x' = .ok none := by
  have hdone : (d.rerouteLink x l r x').hop x' = .done (.ok none) := by rw [hf.detour.new, if_pos hx]
  rw [resolveSource_eq_followLinks, show maxRerouteHops = 63 + 1 from rfl, followLinks, hdone]
  simp

/-! ## Imported nodes after the reroute -/

/-- One input slot read into a node's inputs: the step of `Document.node`. -/
def connectSlot (d : Document) (ins : Inputs) (slot : Fields) : Outcome Inputs := do
  match Fields.get? slot "name" with
  | some (.str name) =>
    let link := slotLink slot
    if name.isEmpty || link < 0 then return ins
    match ← d.resolveSource link with
    | some (src, k) => return Inputs.set ins name (.connection (toString src) k)
    | none => return ins
  | _ => return ins

/-- **A slot reads the same after the reroute.** -/
theorem FreshReroute.connectSlot_eq (hf : d.FreshReroute x l r x') {ins ins' : Inputs} {s s' : Fields}
    (hm : SlotMoved x x' s s') (hfree : slotLink s ≠ x') (hb : (d.rerouteLink x l r x').HopsBounded (slotLink s'))
    (h : d.connectSlot ins s = .ok ins') : (d.rerouteLink x l r x').connectSlot ins s' = .ok ins' := by
  unfold connectSlot at h ⊢
  rw [hm.1]
  cases hn : Fields.get? s "name" with
  | none => simpa [hn] using h
  | some v =>
    cases v with
    | str name =>
      simp only [hn] at h ⊢
      rcases hm.2 with hl | ⟨hl, hl'⟩
      · -- the link is kept, and resolves as before
        rw [hl] at hb ⊢
        split
        · rwa [if_pos (by assumption)] at h
        · rw [if_neg (by assumption)] at h
          obtain ⟨o, ho, h⟩ := exists_of_bind_eq_ok h
          rw [hf.resolveSource_old hfree ho hb]
          exact h
      · -- the link moved from `x` to `x'`, which resolves as `x` did
        rw [hl'] at hb ⊢
        rw [hl] at h
        have hx' : ¬x' < 0 := Int.not_lt.2 hf.nonneg
        by_cases hname : name.isEmpty = true
        · simpa [hname] using h
        · rw [if_neg (by simp [hname, hx'])]
          by_cases hx : x < 0
          · -- a negative link was never followed, and the reroute ends the walk from `x'`
            rw [if_pos (by simp [hx])] at h
            rw [hf.resolveSource_new_neg hx]
            exact h
          · rw [if_neg (by simp [hname, hx])] at h
            obtain ⟨o, ho, h⟩ := exists_of_bind_eq_ok h
            rw [hf.resolveSource_new (Int.not_lt.1 hx) ho hb]
            exact h
    | _ => simpa [hn] using h

/-- **A saved node imports the same after the reroute**, when it is moved as
`NodeMoved` says, took no slot on `x'` before, and its chains are in bound. -/
theorem FreshReroute.node_eq (hf : d.FreshReroute x l r x') {schema : Schema} {id : Int} {type : String}
    {raw raw' : Fields} {res : Node × List String} (hm : NodeMoved x x' raw raw')
    (hfree : ∀ slots, inputSlots raw = .ok slots → ∀ s ∈ slots, slotLink s ≠ x')
    (hb : ∀ slots, inputSlots raw' = .ok slots → ∀ s ∈ slots, (d.rerouteLink x l r x').HopsBounded (slotLink s))
    (h : d.node schema id type raw = .ok res) : (d.rerouteLink x l r x').node schema id type raw' = .ok res := by
  obtain ⟨g, hslots, hmoved⟩ := hm.slots
  unfold Document.node at h ⊢
  rw [hm.get "widgets_values" (by decide), hm.get "title" (by decide), hm.get "mode" (by decide), hslots]
  dsimp only at h ⊢
  obtain ⟨slots, hs, h⟩ := exists_of_bind_eq_ok h
  obtain ⟨ins, hins, h⟩ := exists_of_bind_eq_ok h
  have hs' : inputSlots raw' = .ok (slots.map g) := by rw [hslots, hs]; rfl
  -- each slot steps as its moved image
  have hfold := foldlM_map_of_step (f := d.connectSlot) (g := (d.rerouteLink x l r x').connectSlot) (e := g) slots
    (fun s hs₀ ins ins' hstep => hf.connectSlot_eq (hmoved s) (hfree slots hs s hs₀)
      (hb _ hs' _ (List.mem_map_of_mem hs₀)) hstep) _ ins hins
  rw [hs]
  simp only [Except.map, bind, Except.bind]
  erw [hfold]
  exact h

/-! ## The imported graph after the reroute -/

/-- One saved node taken into the graph: the step of `Document.toGraph`. -/
def importStep (d : Document) (schema : Schema) (acc : Graph × List (String × Binary64 × Binary64) × List String)
    (entry : Int × Fields) : Outcome (Graph × List (String × Binary64 × Binary64) × List String) := do
  let (g, positions, warnings) := acc
  let (id, raw) := entry
  let type := nodeType raw
  if type.isEmpty || rerouteTypes.contains type then return acc
  if noteTypes.contains type then return ({ g with notes := g.notes ++ [note id raw] }, positions, warnings)
  let (n, ws) ← d.node schema id type raw
  let pos ← asPair? ((Fields.get? raw "pos").getD .null)
  let positions := match pos with
    | some p => positions ++ [(n.id, p)]
    | none => positions
  return (g.insert n, positions, warnings ++ ws)

/-- **A saved node is taken into the graph the same after the reroute.** Only
a node of a kept class reads its slots, so only its chains need a bound. -/
theorem FreshReroute.importStep_eq (hf : d.FreshReroute x l r x') {schema : Schema}
    {acc acc' : Graph × List (String × Binary64 × Binary64) × List String} {id : Int} {raw raw' : Fields}
    (hm : NodeMoved x x' raw raw') (hfree : ∀ slots, inputSlots raw = .ok slots → ∀ s ∈ slots, slotLink s ≠ x')
    (hb : IsNodeType (nodeType raw) →
      ∀ slots, inputSlots raw' = .ok slots → ∀ s ∈ slots, (d.rerouteLink x l r x').HopsBounded (slotLink s))
    (h : d.importStep schema acc (id, raw) = .ok acc') :
    (d.rerouteLink x l r x').importStep schema acc (id, raw') = .ok acc' := by
  obtain ⟨g, positions, warnings⟩ := acc
  unfold importStep at h ⊢
  dsimp only at h ⊢
  rw [hm.nodeType_eq, hm.note_eq, hm.get "pos" (by decide)]
  by_cases hskip : ((nodeType raw).isEmpty || rerouteTypes.contains (nodeType raw)) = true
  · rwa [if_pos hskip] at h ⊢
  · rw [if_neg hskip] at h ⊢
    by_cases hnote : noteTypes.contains (nodeType raw) = true
    · rwa [if_pos hnote] at h ⊢
    · rw [if_neg hnote] at h ⊢
      obtain ⟨res, hn, h⟩ := exists_of_bind_eq_ok h
      -- a node of a kept class: its chains are bounded
      have hkept : IsNodeType (nodeType raw) :=
        ⟨fun he => hskip (by simp [he]), fun hr => hskip (by simp [hr]), fun hn => hnote (by simp [hn])⟩
      rw [hf.node_eq hm hfree (hb hkept) hn]
      exact h

/-- The saved nodes after the reroute: each relinked where it is the row's
target, and the reroute last. -/
theorem FreshReroute.nodes_eq (hf : d.FreshReroute x l r x') :
    (d.rerouteLink x l r x').nodes =
      d.nodes.map (fun p => (p.1, relinkTarget x l x' p.1 p.2)) ++ [(r, rerouteNode r x)] := by
  refine IntMap.put_of_get?_none ?_ _
  rw [IntMap.get?_map, hf.unsaved]
  rfl

/-- **Putting a fresh reroute on a link imports the same graph with the same
warnings**, when every chain that a node of a kept class reads after the
reroute is in bound. -/
theorem FreshReroute.toGraph_eq (hf : d.FreshReroute x l r x') {schema : Schema} {res : Graph × List String}
    (hb : ∀ p ∈ (d.rerouteLink x l r x').nodes, IsNodeType (nodeType p.2) →
      ∀ slots, inputSlots p.2 = .ok slots → ∀ s ∈ slots, (d.rerouteLink x l r x').HopsBounded (slotLink s))
    (h : d.toGraph schema = .ok res) : (d.rerouteLink x l r x').toGraph schema = .ok res := by
  unfold toGraph at h ⊢
  dsimp only at h ⊢
  obtain ⟨acc, hacc, h⟩ := exists_of_bind_eq_ok h
  have hmem : ∀ p ∈ d.nodes, (p.1, relinkTarget x l x' p.1 p.2) ∈ (d.rerouteLink x l r x').nodes :=
    fun p hp => by
      rw [hf.nodes_eq]
      exact List.mem_append_left _ (List.mem_map_of_mem hp)
  -- the saved nodes step as before, and the reroute at the end is skipped
  have hfold : (d.rerouteLink x l r x').nodes.foldlM ((d.rerouteLink x l r x').importStep schema)
      ({ wrapped := true }, [], []) = .ok acc := by
    rw [hf.nodes_eq, List.foldlM_append,
      foldlM_map_of_step (f := d.importStep schema) d.nodes (fun ⟨id, raw⟩ hp acc acc' hstep => ?_) _ acc hacc]
    · simp [importStep, nodeType_rerouteNode, rerouteTypes, bind, Except.bind, pure, Except.pure]
    · have hm : NodeMoved x x' raw (relinkTarget x l x' id raw) := by
        unfold relinkTarget
        split
        · exact nodeMoved_relink x x' raw
        · exact nodeMoved_refl x x' raw
      exact hf.importStep_eq hm (hf.untaken _ hp) (fun hkept => hb _ (hmem _ hp) (hm.nodeType_eq ▸ hkept)) hstep
  erw [hfold]
  exact h

end Document

/-! ## The saved document with a reroute -/

/-- A link written as a row of the table. -/
def Link.toRow (m : Link) : Value :=
  .arr [.int m.id, .int m.source, .int m.sourceSlot, .int m.target, .int m.targetSlot, .str "*"]

/-- A row of the table, moved to end at the reroute `r` when it is link `x`. -/
def retargetRow (x : Int) (l : Link) (r : Int) (row : Value) : Value :=
  match Link.ofValue? row with
  | some m => if m.id = x then Link.toRow { l with target := r, targetSlot := 0 } else row
  | none => row

/-- A saved node, relinked when it is the row's target. -/
def relinkSaved (x : Int) (l : Link) (x' : Int) : Value → Value
  | .obj fs => if asInt? ((Fields.get? fs "id").getD .null) = some l.target then .obj (relink x x' fs) else .obj fs
  | v => v

/-- The layout document with link `x`, the row `l`, passed through a new
reroute `r`: the row ends at the reroute, whose first input slot takes it, and
a new row `x'` from the reroute's output 0 takes its place at the target. -/
def addReroute (doc : Fields) (x : Int) (l : Link) (r x' : Int) : Fields :=
  let items := match Fields.get? doc "nodes" with
    | some (.arr items) => items
    | _ => []
  let rows := match Fields.get? doc "links" with
    | some (.arr rows) => rows
    | _ => []
  (doc.insert "nodes" (.arr (items.map (relinkSaved x l x') ++ [.obj (rerouteNode r x)]))).insert "links"
    (.arr (rows.map (retargetRow x l r) ++ [Link.toRow ⟨x', r, 0, l.target, l.targetSlot⟩]))

theorem Link.ofValue?_toRow (m : Link) : Link.ofValue? m.toRow = some m := by
  simp [Link.ofValue?, Link.toRow, asInt?]

/-- One row filed in the link table by its id: the step of `linkTable`. -/
def fileRow (acc : IntMap Link) (row : Value) : IntMap Link :=
  match Link.ofValue? row with
  | some l => if l.id == -1 then acc else IntMap.put acc l.id l
  | none => acc

/-- One saved node filed by its id: the step of `Document.ofFields`. -/
def fileNode (acc : IntMap Fields) (item : Value) : IntMap Fields :=
  match item with
  | .obj fs => match asInt? ((Fields.get? fs "id").getD .null) with
    | some id => if id == -1 then acc else IntMap.put acc id fs
    | none => acc
  | _ => acc

theorem linkTable_arr (rows : List Value) : linkTable (.arr rows) = rows.foldl fileRow [] := rfl

/-- The table files each row under the row's own id. -/
theorem linkTable_key {v : Value} {k : Int} {m : Link} (h : IntMap.get? (linkTable v) k = some m) : m.id = k := by
  -- every entry of the table being built is filed under its id
  have hinv : ∀ (rows : List Value) (acc : IntMap Link), (∀ p ∈ acc, p.2.id = p.1) →
      ∀ p ∈ rows.foldl fileRow acc, p.2.id = p.1 := by
    intro rows
    induction rows with
    | nil => exact fun _ hacc => hacc
    | cons row rows ih =>
      intro acc hacc
      refine ih _ fun p hp => ?_
      unfold fileRow at hp
      split at hp
      · split at hp
        · exact hacc p hp
        · rcases IntMap.mem_put hp with hp | rfl
          · exact hacc p hp
          · rfl
      · exact hacc p hp
  have hmem := IntMap.mem_of_get? h
  cases v with
  | arr rows => exact hinv rows [] (fun _ h => absurd h List.not_mem_nil) _ hmem
  | _ => exact absurd hmem List.not_mem_nil

/-- The link filed under key `k`, moved to end at the reroute when `k` is `x`. -/
def retargetLink (x : Int) (l : Link) (r k : Int) (m : Link) : Link :=
  if k = x then { l with target := r, targetSlot := 0 } else m

/-- Filing a row moved to end at the reroute files the moved link. -/
theorem fileRow_retargetRow {x : Int} {l : Link} (r : Int) (hl : l.id = x) (acc : IntMap Link) (row : Value) :
    fileRow (acc.map fun p => (p.1, retargetLink x l r p.1 p.2)) (retargetRow x l r row) =
      (fileRow acc row).map fun p => (p.1, retargetLink x l r p.1 p.2) := by
  unfold retargetRow
  cases hm : Link.ofValue? row with
  | none => simp [fileRow, hm]
  | some m =>
    by_cases hmx : m.id = x
    · -- a row of link `x`: filed with the moved link in its place
      simp only [hmx, if_true, fileRow, Link.ofValue?_toRow, hm, hl]
      split
      · rfl
      · rw [IntMap.map_put]
        simp [retargetLink, hl]
    · simp only [hmx, if_false, fileRow, hm]
      split
      · rfl
      · rw [IntMap.map_put]
        simp [retargetLink, hmx]

/-- The rows moved to end at the reroute file as the table moved. -/
theorem foldl_fileRow_retarget {x : Int} {l : Link} (r : Int) (hl : l.id = x) :
    ∀ (rows : List Value) (acc : IntMap Link),
      (rows.map (retargetRow x l r)).foldl fileRow (acc.map fun p => (p.1, retargetLink x l r p.1 p.2)) =
        (rows.foldl fileRow acc).map fun p => (p.1, retargetLink x l r p.1 p.2)
  | [], _ => rfl
  | row :: rows, acc => by
    rw [List.map_cons, List.foldl_cons, List.foldl_cons, fileRow_retargetRow r hl]
    exact foldl_fileRow_retarget r hl rows _

/-- **The link table of the layout with the reroute**: the row of link `x`
ends at the reroute, and the new row `x'` comes last. -/
theorem linkTable_addReroute {rows : List Value} {x r x' : Int} {l : Link}
    (hl : IntMap.get? (linkTable (.arr rows)) x = some l) (hx' : 0 ≤ x') :
    linkTable (.arr (rows.map (retargetRow x l r) ++ [Link.toRow ⟨x', r, 0, l.target, l.targetSlot⟩])) =
      ((linkTable (.arr rows)).put x { l with target := r, targetSlot := 0 }).put x' ⟨x', r, 0, l.target, l.targetSlot⟩ := by
  have hx'1 : (x' == -1) = false := by simp; omega
  rw [linkTable_arr, List.foldl_append, ← linkTable_arr]
  rw [show linkTable (.arr (rows.map (retargetRow x l r))) =
      (linkTable (.arr rows)).map fun p => (p.1, retargetLink x l r p.1 p.2) from
    foldl_fileRow_retarget r (linkTable_key hl) rows []]
  rw [IntMap.put_of_isSome (m := linkTable (.arr rows)) (k := x) (by rw [hl]; rfl)]
  simp [fileRow, Link.ofValue?_toRow, hx'1, retargetLink]

/-- Filing a saved node relinked where it is the row's target files the
relinked node. -/
theorem fileNode_relinkSaved (x : Int) (l : Link) (x' : Int) (acc : IntMap Fields) (item : Value) :
    fileNode (acc.map fun p => (p.1, relinkTarget x l x' p.1 p.2)) (relinkSaved x l x' item) =
      (fileNode acc item).map fun p => (p.1, relinkTarget x l x' p.1 p.2) := by
  cases item with
  | obj fs =>
    -- relinking keeps the id the node is filed under
    have hid : Fields.get? (relink x x' fs) "id" = Fields.get? fs "id" := get?_relink x x' fs (by decide)
    cases hi : asInt? ((Fields.get? fs "id").getD .null) with
    | none =>
      have hsaved : relinkSaved x l x' (.obj fs) = .obj fs := by simp [relinkSaved, hi]
      simp [hsaved, fileNode, hi]
    | some i =>
      have hsaved : relinkSaved x l x' (.obj fs) = .obj (relinkTarget x l x' i fs) := by
        by_cases hB : i = l.target <;> simp [relinkSaved, relinkTarget, hi, hB]
      have hid' : asInt? ((Fields.get? (relinkTarget x l x' i fs) "id").getD .null) = some i := by
        unfold relinkTarget
        split
        · rw [hid, hi]
        · exact hi
      rw [hsaved]
      by_cases hneg : i = -1
      · subst hneg
        simp [fileNode, hi, hid']
      · have h₁ : fileNode acc (.obj fs) = IntMap.put acc i fs := by simp [fileNode, hi, hneg]
        have h₂ : fileNode (acc.map fun p => (p.1, relinkTarget x l x' p.1 p.2)) (.obj (relinkTarget x l x' i fs)) =
            IntMap.put (acc.map fun p => (p.1, relinkTarget x l x' p.1 p.2)) i (relinkTarget x l x' i fs) := by
          simp [fileNode, hid', hneg]
        rw [h₁, h₂, IntMap.map_put]
  | _ => rfl

/-- The saved nodes relinked where they are the row's target file as the
filed nodes relinked. -/
theorem foldl_fileNode_relink (x : Int) (l : Link) (x' : Int) :
    ∀ (items : List Value) (acc : IntMap Fields),
      (items.map (relinkSaved x l x')).foldl fileNode (acc.map fun p => (p.1, relinkTarget x l x' p.1 p.2)) =
        (items.foldl fileNode acc).map fun p => (p.1, relinkTarget x l x' p.1 p.2)
  | [], _ => rfl
  | item :: items, acc => by
    rw [List.map_cons, List.foldl_cons, List.foldl_cons, fileNode_relinkSaved]
    exact foldl_fileNode_relink x l x' items _

/-- **The saved nodes of the layout with the reroute**: each relinked where it
is the row's target, and the reroute filed last. -/
theorem foldl_fileNode_addReroute {items : List Value} {x r x' : Int} {l : Link} (hr : r ≠ -1) :
    (items.map (relinkSaved x l x') ++ [Value.obj (rerouteNode r x)]).foldl fileNode [] =
      IntMap.put ((items.foldl fileNode []).map fun p => (p.1, relinkTarget x l x' p.1 p.2)) r (rerouteNode r x) := by
  have hr1 : (r == -1) = false := by simpa using hr
  rw [List.foldl_append, show (items.map (relinkSaved x l x')).foldl fileNode [] =
      (items.foldl fileNode []).map fun p => (p.1, relinkTarget x l x' p.1 p.2) from
    foldl_fileNode_relink x l x' items []]
  simp [fileNode, rerouteNode, Fields.get?, asInt?, hr1]

/-- A document whose saved nodes are a list reads by filing them one by one. -/
theorem ofFields_of_arr {doc : Fields} {items : List Value} (h : Fields.get? doc "nodes" = some (.arr items)) :
    Document.ofFields doc = .ok ⟨doc, linkTable ((Fields.get? doc "links").getD .null), items.foldl fileNode []⟩ := by
  unfold Document.ofFields
  dsimp only
  rw [h, Option.getD_some]
  cases items <;> rfl

theorem exists_arr_of_isLayout {doc : Fields} (h : isLayout doc = true) :
    ∃ items, Fields.get? doc "nodes" = some (.arr items) := by
  unfold isLayout at h
  split at h
  · exact ⟨_, by assumption⟩
  · cases h

theorem fields_of_ofFields {doc : Fields} {d : Document} (hlayout : isLayout doc = true)
    (hd : Document.ofFields doc = .ok d) : d.fields = doc := by
  obtain ⟨items, hitems⟩ := exists_arr_of_isLayout hlayout
  rw [ofFields_of_arr hitems] at hd
  cases hd
  rfl

/-- **The layout document with the reroute reads as the document with the
reroute.** -/
theorem ofFields_addReroute {doc : Fields} {d : Document} {x r x' : Int} {l : Link} (hlayout : isLayout doc = true)
    (hd : Document.ofFields doc = .ok d) (hl : IntMap.get? d.links x = some l) (hr : r ≠ -1) (hx' : 0 ≤ x') :
    Document.ofFields (addReroute doc x l r x') = .ok { d.rerouteLink x l r x' with fields := addReroute doc x l r x' } := by
  obtain ⟨items, hitems⟩ := exists_arr_of_isLayout hlayout
  -- the document as read, its nodes filed one by one
  have hd' : d = ⟨doc, linkTable ((Fields.get? doc "links").getD .null), items.foldl fileNode []⟩ := by
    rw [ofFields_of_arr hitems] at hd
    exact (Except.ok.inj hd).symm
  obtain ⟨rows, hrows, hlinks'⟩ : ∃ rows, linkTable ((Fields.get? doc "links").getD .null) = linkTable (.arr rows) ∧
      Fields.get? (addReroute doc x l r x') "links" =
        some (.arr (rows.map (retargetRow x l r) ++ [Link.toRow ⟨x', r, 0, l.target, l.targetSlot⟩])) := by
    cases hlk : Fields.get? doc "links" with
    | none => exact ⟨[], rfl, by simp [addReroute, Fields.get?_insert, hlk]⟩
    | some v =>
      cases v with
      | arr rows => exact ⟨rows, rfl, by simp [addReroute, Fields.get?_insert, hlk]⟩
      | _ => exact ⟨[], rfl, by simp [addReroute, Fields.get?_insert, hlk]⟩
  have hnodes' : Fields.get? (addReroute doc x l r x') "nodes" =
      some (.arr (items.map (relinkSaved x l x') ++ [.obj (rerouteNode r x)])) := by
    simp [addReroute, Fields.get?_insert, hitems]
  subst hd'
  have hl' : IntMap.get? (linkTable (.arr rows)) x = some l := by
    rw [← hrows]
    exact hl
  rw [ofFields_of_arr hnodes', hlinks', Option.getD_some, linkTable_addReroute hl' hx', foldl_fileNode_addReroute hr,
    ← hrows]
  rfl

namespace Document

/-- Import reads the document's own fields for its groups only. -/
theorem toGraph_fields (d : Document) {fs : Fields} (h : Fields.get? fs "groups" = Fields.get? d.fields "groups")
    (schema : Schema) : ({ d with fields := fs } : Document).toGraph schema = d.toGraph schema := by
  have hres : ({ d with fields := fs } : Document).resolveSource = d.resolveSource := by
    funext y
    rw [resolveSource_eq_followLinks, resolveSource_eq_followLinks]
    rfl
  have hnode : ({ d with fields := fs } : Document).node = d.node := by
    funext schema id type raw
    unfold Document.node
    rw [hres]
  have hgroups : ({ d with fields := fs } : Document).groups = d.groups := by
    funext positions
    unfold Document.groups
    rw [h]
  unfold toGraph
  rw [hnode, hgroups]

theorem hopsBounded_fields {d : Document} {fs : Fields} {y : Int}
    (h : ({ d with fields := fs } : Document).HopsBounded y) : d.HopsBounded y :=
  fun k p hl => h k p (leads_of_ends (d := { d with fields := fs }) hl.ends rfl)

end Document

/-- **Reroutes are transparent to layout import.** Passing link `x`, the row
`l`, of a layout document through a fresh reroute `r`, with a fresh link `x'`
from the reroute's output 0 taking the row's place at its target, imports the
same graph with the same warnings, as long as every chain that a node of a kept
class reads in the new document spans at most `maxRerouteHops` links. -/
theorem importLayout_addReroute {doc : Fields} {d : Document} {schema : Schema} {x r x' : Int} {l : Link}
    {res : Graph × List String} (hlayout : isLayout doc = true) (hd : Document.ofFields doc = .ok d)
    (hf : d.FreshReroute x l r x') (hr : r ≠ -1)
    (hb : ∀ d', Document.ofFields (addReroute doc x l r x') = .ok d' → ∀ p ∈ d'.nodes, IsNodeType (nodeType p.2) →
      ∀ slots, inputSlots p.2 = .ok slots → ∀ s ∈ slots, d'.HopsBounded (slotLink s))
    (h : importLayout doc schema = .ok res) :
    importLayout (addReroute doc x l r x') schema = .ok res := by
  have hread := ofFields_addReroute hlayout hd hf.link hr hf.nonneg
  have hgroups : Fields.get? (addReroute doc x l r x') "groups" = Fields.get? (d.rerouteLink x l r x').fields "groups" := by
    show _ = Fields.get? d.fields "groups"
    rw [fields_of_ofFields hlayout hd]
    simp [addReroute, Fields.get?_insert]
  unfold importLayout at h ⊢
  rw [hd] at h
  rw [hread]
  show ({ d.rerouteLink x l r x' with fields := addReroute doc x l r x' } : Document).toGraph schema = .ok res
  rw [Document.toGraph_fields _ hgroups]
  exact hf.toGraph_eq (fun p hp hkept slots hs s hs' => Document.hopsBounded_fields (hb _ hread p hp hkept slots hs s hs')) h

/-! ## A reroute between a loader and a sampler -/

/-- A saved loader. -/
def loaderSaved : Fields := [("id", .int 1), ("type", .str "CheckpointLoaderSimple")]

/-- A saved sampler whose model input takes link 1. -/
def samplerSaved : Fields :=
  [("id", .int 2), ("type", .str "KSampler"),
    ("inputs", .arr [.obj [("name", .str "model"), ("type", .str "MODEL"), ("link", .int 1)]])]

/-- Link 1, from the loader's output 0 to the sampler's input 0. -/
def loaderSamplerLink : Link := ⟨1, 1, 0, 2, 0⟩

/-- A loader read by a sampler. -/
def loaderSamplerLayout : Fields :=
  [("nodes", .arr [.obj loaderSaved, .obj samplerSaved]), ("links", .arr [loaderSamplerLink.toRow])]

/-- The graph `loaderSamplerLayout` imports to. -/
def loaderSamplerGraph : Graph :=
  { wrapped := true
    nodes := [{ id := "1", classType := "CheckpointLoaderSimple"
                outputs := [⟨"MODEL", "MODEL"⟩, ⟨"CLIP", "CLIP"⟩, ⟨"VAE", "VAE"⟩] },
              { id := "2", classType := "KSampler", inputs := [("model", .connection "1" 0)]
                outputs := [⟨"LATENT", "LATENT"⟩] }] }

/-- `loaderSamplerLayout` as read. -/
def loaderSamplerDocument : Document :=
  ⟨loaderSamplerLayout, [(1, loaderSamplerLink)], [(1, loaderSaved), (2, samplerSaved)]⟩

theorem ofFields_loaderSamplerLayout : Document.ofFields loaderSamplerLayout = .ok loaderSamplerDocument := rfl

/-- Reroute 10 and link 20 are fresh in `loaderSamplerDocument`. -/
theorem freshReroute_loaderSampler : loaderSamplerDocument.FreshReroute 1 loaderSamplerLink 10 20 where
  link := rfl
  unsaved := rfl
  unsourced y l' h := by
    obtain ⟨-, rfl⟩ := Prod.mk.inj (List.mem_singleton.1 (IntMap.mem_of_get? h))
    decide
  unlisted := rfl
  nonneg := by decide
  untaken p hp slots hs s hs' := by
    simp only [loaderSamplerDocument, List.mem_cons, List.not_mem_nil, or_false] at hp
    rcases hp with rfl | rfl
    · cases (show inputSlots loaderSaved = .ok [] from rfl).symm.trans hs
      cases hs'
    · cases (show inputSlots samplerSaved = .ok [[("name", .str "model"), ("type", .str "MODEL"), ("link", .int 1)]]
        from rfl).symm.trans hs
      rw [List.mem_singleton.1 hs']
      decide

/-- With the reroute, the sampler reads the loader two links away. -/
theorem hopsBounded_loaderSampler :
    ∀ d', Document.ofFields (addReroute loaderSamplerLayout 1 loaderSamplerLink 10 20) = .ok d' →
      ∀ p ∈ d'.nodes, IsNodeType (nodeType p.2) →
        ∀ slots, inputSlots p.2 = .ok slots → ∀ s ∈ slots, d'.HopsBounded (slotLink s) := by
  intro d' hd' p hp hkept slots hs s hs'
  rw [ofFields_addReroute rfl ofFields_loaderSamplerLayout rfl (by decide) (by decide)] at hd'
  cases hd'
  change p ∈ [(1, loaderSaved), (2, relink 1 20 samplerSaved), (10, rerouteNode 10 1)] at hp
  simp only [List.mem_cons, List.not_mem_nil, or_false] at hp
  rcases hp with rfl | rfl | rfl
  · -- the loader has no input slots
    cases (show inputSlots loaderSaved = .ok [] from rfl).symm.trans hs
    cases hs'
  · -- the sampler's slot now takes link 20, which leads to the loader in two links
    cases (show inputSlots (relink 1 20 samplerSaved) =
      .ok [[("name", .str "model"), ("type", .str "MODEL"), ("link", .int 20)]] from rfl).symm.trans hs
    rw [List.mem_singleton.1 hs']
    exact Document.hopsBounded_of_ends (.next rfl (.done rfl)) (by decide)
  · -- the reroute is no node of a kept class
    exact absurd (by simp [nodeType_rerouteNode, rerouteTypes]) hkept.2.1

/-- With a reroute 10 on link 1 and a new link 20 into the sampler, the layout
still imports to the loader feeding the sampler. -/
theorem importLayout_addReroute_loader_sampler :
    importLayout (addReroute loaderSamplerLayout 1 loaderSamplerLink 10 20) loaderSamplerSchema =
      .ok (loaderSamplerGraph, []) :=
  importLayout_addReroute rfl ofFields_loaderSamplerLayout freshReroute_loaderSampler (by decide)
    hopsBounded_loaderSampler rfl

/-- The graph of a loader and a sampler with nothing wired. -/
def loaderSamplerUnwired : Graph :=
  { wrapped := true
    nodes := [{ id := "1", classType := "CheckpointLoaderSimple"
                outputs := [⟨"MODEL", "MODEL"⟩, ⟨"CLIP", "CLIP"⟩, ⟨"VAE", "VAE"⟩] },
              { id := "2", classType := "KSampler", outputs := [⟨"LATENT", "LATENT"⟩] }] }

/-- **A negative new link is never followed.** With the new link numbered -5,
the sampler's slot names a link that import skips, and the sampler loses the
model it read before the reroute. -/
theorem importLayout_addReroute_negative_link :
    importLayout loaderSamplerLayout loaderSamplerSchema = .ok (loaderSamplerGraph, []) ∧
      importLayout (addReroute loaderSamplerLayout 1 loaderSamplerLink 10 (-5)) loaderSamplerSchema =
        .ok (loaderSamplerUnwired, []) ∧
      (∃ n ∈ loaderSamplerGraph.nodes, ("model", InputValue.connection "1" 0) ∈ n.inputs) ∧
      ∀ n ∈ loaderSamplerUnwired.nodes, n.inputs = [] :=
  ⟨rfl, rfl, by simp [loaderSamplerGraph], by simp [loaderSamplerUnwired]⟩

end Layout

end NodeFlow
