import NodeFlow.Layout.Import
/-!
# Following links through reroutes

The importer follows a link whose origin is a reroute on through the link into
the reroute's first input slot, at most `maxRerouteHops` links and never
through a link twice. This module reads that as a walk over a hop function
(`followLinks`), which is `Document.resolveSource` for the hop of a document
(`resolveSource_eq_followLinks`).

A walk that ends does so along a chain of distinct links (`Ends`), and the walk
finds that end whenever its fuel covers the chain (`followLinks_of_ends`). A
detour (`Detour`) is one new link that hops where the old ones did, reached from
the old links that hopped there before. Chains keep their ends through a
detour, one link longer at most, so every walk that ended keeps its answer
(`Detour.followLinks_eq`). In a document, a chain that ends at a node's output
is `Document.Leads`.
-/

namespace NodeFlow

open Json

namespace Layout

/-! ## Walks over links -/

/-- Where following one link leads: to a result, or on to the next link. -/
inductive Hop where
  | done (r : Outcome (Option (Int × Int)))
  | next (up : Int)

/-- Follow links by `hop`, at most `fuel` of them and never one twice: the
rule of `Document.resolveSource`, for any way of hopping. -/
def followLinks (hop : Int → Hop) : Nat → Int → List Int → Outcome (Option (Int × Int))
  | 0, _, _ => .ok none
  | fuel + 1, x, seen =>
    if seen.contains x then .ok none
    else match hop x with
      | .done r => r
      | .next y => followLinks hop fuel y (x :: seen)

/-- Following link `x` by `hop` ends after `k` links with `r`. -/
inductive Ends (hop : Int → Hop) : Int → Nat → Outcome (Option (Int × Int)) → Prop
  /-- The link itself gives the answer. -/
  | done {x : Int} {r : Outcome (Option (Int × Int))} : hop x = .done r → Ends hop x 1 r
  /-- The link hops on, and the chain from there ends one link sooner. -/
  | next {x y : Int} {k : Nat} {r : Outcome (Option (Int × Int))} :
      hop x = .next y → Ends hop y k r → Ends hop x (k + 1) r

/-- Link `z` lies `n` links down the chain from `x`. -/
inductive Reaches (hop : Int → Hop) : Int → Int → Nat → Prop
  | refl {x : Int} : Reaches hop x x 0
  | next {x y z : Int} {n : Nat} : hop x = .next y → Reaches hop y z n → Reaches hop x z (n + 1)

section Walks

variable {hop : Int → Hop}

theorem Ends.pos {x : Int} {k : Nat} {r : Outcome (Option (Int × Int))} (h : Ends hop x k r) : 0 < k := by
  cases h <;> omega

/-- A chain ends in one way only. -/
theorem Ends.unique {x : Int} {k k' : Nat} {r r' : Outcome (Option (Int × Int))}
    (h : Ends hop x k r) (h' : Ends hop x k' r') : k = k' ∧ r = r' := by
  induction h generalizing k' with
  | done hx =>
    cases h' with
    | done hx' =>
      rw [hx] at hx'
      cases hx'
      exact ⟨rfl, rfl⟩
    | next hx' _ =>
      rw [hx] at hx'
      cases hx'
  | next hx _ ih =>
    cases h' with
    | done hx' =>
      rw [hx] at hx'
      cases hx'
    | next hx' h'' =>
      rw [hx] at hx'
      cases hx'
      obtain ⟨rfl, rfl⟩ := ih h''
      exact ⟨rfl, rfl⟩

/-- A chain that ends still ends from each link it reaches, that many links
sooner. -/
theorem Ends.of_reaches {x z : Int} {k n : Nat} {r : Outcome (Option (Int × Int))}
    (h : Ends hop x k r) (hz : Reaches hop x z n) : n < k ∧ Ends hop z (k - n) r := by
  induction hz generalizing k with
  | refl => exact ⟨h.pos, by simpa using h⟩
  | next hx _ ih =>
    cases h with
    | done hx' =>
      rw [hx] at hx'
      cases hx'
    | next hx' h' =>
      rw [hx] at hx'
      cases hx'
      obtain ⟨hlt, hend⟩ := ih h'
      exact ⟨by omega, by simpa [Nat.add_sub_add_right] using hend⟩

/-- A chain that ends never comes back to a link it has left. -/
theorem Ends.not_reaches_of_next {x y : Int} {k n : Nat} {r : Outcome (Option (Int × Int))}
    (hx : hop x = .next y) (h : Ends hop y k r) : ¬Reaches hop y x n := by
  intro hr
  obtain ⟨-, hxk⟩ := h.of_reaches hr
  have := ((Ends.next hx h).unique hxk).1
  omega

/-- **A walk finds the end of a chain** when its fuel covers the chain and it
has seen none of the chain's links. -/
theorem followLinks_of_ends {x : Int} {k : Nat} {r : Outcome (Option (Int × Int))} (h : Ends hop x k r) :
    ∀ {fuel : Nat} {seen : List Int}, k ≤ fuel → (∀ z ∈ seen, ∀ n, ¬Reaches hop x z n) →
      followLinks hop fuel x seen = r := by
  induction h with
  | @done x r hx =>
    intro fuel seen hk hseen
    obtain ⟨fuel, rfl⟩ : ∃ f, fuel = f + 1 := ⟨fuel - 1, by omega⟩
    have hnot : seen.contains x = false := by
      simpa using fun hmem => hseen x hmem 0 .refl
    rw [followLinks, hnot, if_neg Bool.false_ne_true, hx]
  | @next x y k r hx hy ih =>
    intro fuel seen hk hseen
    obtain ⟨fuel, rfl⟩ : ∃ f, fuel = f + 1 := ⟨fuel - 1, by omega⟩
    have hnot : seen.contains x = false := by
      simpa using fun hmem => hseen x hmem 0 .refl
    rw [followLinks, hnot, if_neg Bool.false_ne_true, hx]
    refine ih (by omega) fun z hz n hr => ?_
    -- `x` itself is off the rest of the chain; the links seen before are off all of it
    rcases List.mem_cons.1 hz with rfl | hz
    · exact Ends.not_reaches_of_next hx hy hr
    · exact hseen z hz (n + 1) (.next hx hr)

/-- **A walk's answer other than none is the end of a chain** within its fuel. -/
theorem ends_of_followLinks :
    ∀ {fuel : Nat} {x : Int} {seen : List Int} {r : Outcome (Option (Int × Int))},
      followLinks hop fuel x seen = r → r ≠ .ok none → ∃ k ≤ fuel, Ends hop x k r
  | 0, _, _, _, h, hr => absurd h.symm hr
  | fuel + 1, x, seen, r, h, hr => by
    rw [followLinks] at h
    split at h
    · exact absurd h.symm hr
    · split at h
      · rename_i r' hx
        subst h
        exact ⟨1, by omega, .done hx⟩
      · rename_i y hx
        obtain ⟨k, hk, hy⟩ := ends_of_followLinks h hr
        exact ⟨k + 1, by omega, .next hx hy⟩

/-! ## A detour -/

/-- `hop'` is `hop` with a detour through a new link `z`: `z` hops as `c`, no
old link hops to `z`, and each old link hops as before, or, where it hopped as
`c`, now hops to `z`. -/
structure Detour (hop hop' : Int → Hop) (z : Int) (c : Hop) : Prop where
  new : hop' z = c
  unreached : ∀ x, hop x ≠ .next z
  old : ∀ x, x ≠ z → hop' x = hop x ∨ (hop x = c ∧ hop' x = .next z)

variable {hop' : Int → Hop} {z : Int} {c : Hop}

/-- A chain that ends keeps its end through a detour. -/
theorem Detour.ends (hd : Detour hop hop' z c) {x : Int} {k : Nat} {r : Outcome (Option (Int × Int))}
    (h : Ends hop x k r) (hx : x ≠ z) : ∃ k', Ends hop' x k' r := by
  induction h with
  | @done x r hxr =>
    rcases hd.old x hx with h' | ⟨hc, h'⟩
    · exact ⟨1, .done (h'.trans hxr)⟩
    · -- the link hopped as `c` does, and now goes through `z`
      exact ⟨2, .next h' (.done (hd.new.trans (hc.symm.trans hxr)))⟩
  | @next x y k r hxy _ ih =>
    obtain ⟨k', hy'⟩ := ih fun hyz => hd.unreached x (hyz ▸ hxy)
    rcases hd.old x hx with h' | ⟨hc, h'⟩
    · exact ⟨k' + 1, .next (h'.trans hxy) hy'⟩
    · exact ⟨k' + 2, .next h' (.next (hd.new.trans (hc.symm.trans hxy)) hy')⟩

/-- A chain through a detour that ends was a chain before it, no longer. -/
theorem Detour.ends_back (hd : Detour hop hop' z c) (k' : Nat) :
    ∀ {x : Int} {r : Outcome (Option (Int × Int))}, Ends hop' x k' r → x ≠ z → ∃ k ≤ k', Ends hop x k r := by
  induction k' using Nat.strongRecOn with
  | ind k' ih =>
    intro x r h hx
    cases h with
    | done hxr =>
      rcases hd.old x hx with h' | ⟨-, h'⟩
      · exact ⟨1, Nat.le_refl 1, .done (h'.symm.trans hxr)⟩
      · rw [h'] at hxr
        cases hxr
    | @next _ y k _ hxy hy =>
      rcases hd.old x hx with h' | ⟨hc, h'⟩
      · -- an old hop: it does not lead to `z`
        have hyz : y ≠ z := fun hyz => hd.unreached x (by rw [← h', hxy, hyz])
        obtain ⟨k₀, hk₀, hy₀⟩ := ih k (by omega) hy hyz
        exact ⟨k₀ + 1, by omega, .next (h'.symm.trans hxy) hy₀⟩
      · -- the hop to `z`: `z` goes on as `x` went before
        rw [h'] at hxy
        cases hxy
        cases hy with
        | done hzr => exact ⟨1, by omega, .done (hc.trans (hd.new.symm.trans hzr))⟩
        | @next _ w k₁ _ hzw hw =>
          have hwz : w ≠ z := fun hwz => hd.unreached x (by rw [hc, ← hd.new, hzw, hwz])
          obtain ⟨k₀, hk₀, hw₀⟩ := ih k₁ (by omega) hw hwz
          exact ⟨k₀ + 1, by omega, .next (hc.trans (hd.new.symm.trans hzw)) hw₀⟩

/-- **Walks keep their answers through a detour.** A walk from a link other
than `z` that answers from no link seen yet answers the same through the
detour, when its fuel covers every chain of `hop'` from that link to a node. -/
theorem Detour.followLinks_eq (hd : Detour hop hop' z c) {x : Int} {fuel fuel' : Nat} {seen' : List Int}
    {r : Option (Int × Int)} (hx : x ≠ z) (h : followLinks hop fuel x [] = .ok r) (hfuel : fuel' ≤ fuel)
    (hhops : ∀ k p, Ends hop' x k (.ok (some p)) → k ≤ fuel')
    (hseen : ∀ k r', Ends hop' x k r' → ∀ y ∈ seen', ∀ n, ¬Reaches hop' x y n) :
    followLinks hop' fuel' x seen' = .ok r := by
  cases r with
  | some p =>
    obtain ⟨k, -, hk⟩ := ends_of_followLinks h (by simp)
    obtain ⟨k', hk'⟩ := hd.ends hk hx
    exact followLinks_of_ends hk' (hhops k' p hk') (hseen _ _ hk')
  | none =>
    -- any other answer ends a chain through the detour, and so a chain before it
    refine Classical.byContradiction fun hne => ?_
    have hwalk' : followLinks hop' fuel' x seen' = followLinks hop' fuel' x seen' := rfl
    obtain ⟨k', hk', hends'⟩ := ends_of_followLinks hwalk' hne
    obtain ⟨k, hk, hends⟩ := hd.ends_back k' hends' hx
    have hsame : followLinks hop fuel x [] = followLinks hop' fuel' x seen' :=
      followLinks_of_ends hends (by omega) (by simp)
    exact hne (hsame.symm.trans h)

end Walks

/-! ## Following links in a document -/

namespace Document

variable {d : Document}

/-- Where a link from output `slot` of node `src` leads: to that output when
the node is no reroute, else on through the link into its first input slot. -/
def hopFrom (d : Document) (src slot : Int) : Hop :=
  match IntMap.get? d.nodes src with
  | none => .done (.ok none)
  | some raw =>
    if !rerouteTypes.contains (nodeType raw) then .done (.ok (some (src, slot)))
    else match inputSlots raw with
      | .error e => .done (.error e)
      | .ok [] => .done (.ok none)
      | .ok (first :: _) => if slotLink first < 0 then .done (.ok none) else .next (slotLink first)

/-- Where following link `x` of a document leads in one hop. -/
def hop (d : Document) (x : Int) : Hop :=
  match IntMap.get? d.links x with
  | none => .done (.ok none)
  | some link => d.hopFrom link.source link.sourceSlot

/-- Following a link in a document is a walk over its hop. -/
theorem resolveSource_go_eq (d : Document) :
    ∀ (fuel : Nat) (x : Int) (seen : List Int), resolveSource.go d fuel x seen = followLinks d.hop fuel x seen
  | 0, _, _ => rfl
  | fuel + 1, x, seen => by
    rw [resolveSource.go, followLinks]
    cases hl : IntMap.get? d.links x with
    | none =>
      -- a missing link ends the walk, seen or not
      cases seen.contains x <;> simp [hop, hl]
    | some link =>
      cases hs : seen.contains x
      · simp only [hop, hl, hopFrom, Bool.false_eq_true, if_false]
        cases hn : IntMap.get? d.nodes link.source with
        | none => rfl
        | some raw =>
          dsimp only
          split
          · rfl
          · cases hslots : inputSlots raw with
            | error e => simp [bind, Except.bind]
            | ok slots =>
              cases slots with
              | nil => simp [bind, Except.bind, pure, Except.pure]
              | cons first rest =>
                simp only [bind, Except.bind]
                split
                · rfl
                · exact resolveSource_go_eq d fuel _ _
      · simp

theorem resolveSource_eq_followLinks (d : Document) (x : Int) :
    d.resolveSource x = followLinks d.hop maxRerouteHops x [] :=
  d.resolveSource_go_eq _ _ _

/-- Following link `x` in a document reaches output `p` of a node after `k`
links: through reroutes by their first input slot, up to an origin that is no
reroute. -/
inductive Leads (d : Document) : Int → Nat → Int × Int → Prop
  /-- The link's origin is no reroute: the chain ends at its output. -/
  | origin {x : Int} {l : Link} {raw : Fields} :
      IntMap.get? d.links x = some l → IntMap.get? d.nodes l.source = some raw →
      nodeType raw ∉ rerouteTypes → d.Leads x 1 (l.source, l.sourceSlot)
  /-- The link's origin is a reroute: the chain goes on through the link of
  its first input slot. -/
  | reroute {x : Int} {l : Link} {raw first : Fields} {rest : List Fields} {k : Nat} {p : Int × Int} :
      IntMap.get? d.links x = some l → IntMap.get? d.nodes l.source = some raw →
      nodeType raw ∈ rerouteTypes → inputSlots raw = .ok (first :: rest) → 0 ≤ slotLink first →
      d.Leads (slotLink first) k p → d.Leads x (k + 1) p

/-- A hop on to another link passes a reroute's first input slot. -/
theorem hop_eq_next {x y : Int} (h : d.hop x = .next y) :
    ∃ l raw first rest, IntMap.get? d.links x = some l ∧ IntMap.get? d.nodes l.source = some raw ∧
      nodeType raw ∈ rerouteTypes ∧ inputSlots raw = .ok (first :: rest) ∧ 0 ≤ slotLink first ∧
      slotLink first = y := by
  unfold hop at h
  split at h
  · cases h
  · rename_i l hl
    unfold hopFrom at h
    split at h
    · cases h
    · rename_i raw hraw
      split at h
      · cases h
      · rename_i hre
        split at h
        · cases h
        · cases h
        · rename_i first rest hslots
          split at h
          · cases h
          · rename_i hpos
            cases h
            exact ⟨l, raw, first, rest, hl, hraw, by simpa using hre, hslots, by omega, rfl⟩

/-- A hop that ends at a node's output comes from a link whose origin is no
reroute. -/
theorem hop_eq_origin {x : Int} {p : Int × Int} (h : d.hop x = .done (.ok (some p))) :
    ∃ l raw, IntMap.get? d.links x = some l ∧ IntMap.get? d.nodes l.source = some raw ∧
      nodeType raw ∉ rerouteTypes ∧ p = (l.source, l.sourceSlot) := by
  unfold hop at h
  split at h
  · cases h
  · rename_i l hl
    unfold hopFrom at h
    split at h
    · cases h
    · rename_i raw hraw
      split at h
      · rename_i hre
        cases h
        exact ⟨l, raw, hl, hraw, by simpa using hre, rfl⟩
      · split at h
        · cases h
        · cases h
        · split at h <;> cases h

theorem Leads.ends {x : Int} {k : Nat} {p : Int × Int} (h : d.Leads x k p) : Ends d.hop x k (.ok (some p)) := by
  induction h with
  | origin hl hn hr => exact .done (by simp [hop, hl, hopFrom, hn, hr])
  | reroute hl hn hr hs hpos _ ih =>
    refine .next ?_ ih
    simp [hop, hl, hopFrom, hn, hr, hs, Int.not_lt.2 hpos]

theorem leads_of_ends {x : Int} {k : Nat} {r : Outcome (Option (Int × Int))} (h : Ends d.hop x k r) :
    ∀ {p : Int × Int}, r = .ok (some p) → d.Leads x k p := by
  induction h with
  | done hx =>
    intro p hr
    subst hr
    obtain ⟨l, raw, hl, hraw, hre, rfl⟩ := hop_eq_origin hx
    exact .origin hl hraw hre
  | next hx _ ih =>
    intro p hr
    obtain ⟨l, raw, first, rest, hl, hraw, hre, hslots, hpos, rfl⟩ := hop_eq_next hx
    exact .reroute hl hraw hre hslots hpos (ih hr)

theorem leads_iff_ends {x : Int} {k : Nat} {p : Int × Int} : d.Leads x k p ↔ Ends d.hop x k (.ok (some p)) :=
  ⟨Leads.ends, fun h => leads_of_ends h rfl⟩

end Document

end Layout

end NodeFlow
