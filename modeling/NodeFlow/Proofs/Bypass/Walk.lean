import Mathlib.Data.Finset.Card
import Mathlib.Data.List.Find
import NodeFlow.Proofs.Bypass.Resolve
/-!
# Where each rewired input ends

An input that reads a bypassed node is rewired by walking back: from the node
a link reads, take its first connected input, in input order, whose name's type
is the one the rewired input's name gives (`Graph.hop`), and go on from there
(`Graph.walk`). The walk leaves the bypassed set first at some hop `k`
(`Graph.ExitsAt`); the input is rewired to the link reached there when `k` is
within the hop limit and the link reads a node of the graph
(`Graph.RewiresTo`), and it is removed with one warning otherwise.

The resolver itself stops a walk after one hop more than there are bypassed
ids. That never cuts a walk that would leave the set: two of its first links
read the same bypassed node, and from there it goes round for ever
(`exitsAt_le_length`). So the resolver's walk ends exactly where the first exit
is (`walkWithin_iff`), and under a hop limit it can write out resolution is
described input by input (`resolveBypass_rewiring`).
-/

namespace NodeFlow

namespace Graph

/-- One hop back from the node with this id: its first connected input, in
input order, whose name's type is `t`. -/
def hop (g : Graph) (t : String) (id : String) : Option (String × Int) :=
  (g.get? id).bind fun b =>
    (b.connections.find? fun (name, _, _) => typeOfInputName name == some t).map fun (_, s, i) => (s, i)

/-- The link `k` hops back from `c`, the first hop taken from the node `c` reads. -/
def walk (g : Graph) (t : String) : Nat → (String × Int) → Option (String × Int)
  | 0, c => some c
  | k + 1, c => (g.hop t c.1).bind (g.walk t k)

/-- The walk from `c` first leaves `bypassed` at hop `k`, at the link `e`: every
link before it reads a bypassed node. -/
def ExitsAt (g : Graph) (bypassed : List String) (t : String) (c : String × Int) (k : Nat)
    (e : String × Int) : Prop :=
  g.walk t k c = some e ∧ e.1 ∉ bypassed ∧ ∀ j < k, ∃ a, g.walk t j c = some a ∧ a.1 ∈ bypassed

/-- Where resolution under the hop limit `d` rewires an input named `name` that
reads the link `c`: the name has a type, the walk of that type leaves the
bypassed set first within `d` hops, and the link it reaches there reads a node
of the graph. -/
def RewiresTo (g : Graph) (bypassed : List String) (d : Int) (name : String) (c e : String × Int) :
    Prop :=
  ∃ t, typeOfInputName name = some t ∧ ∃ k, g.ExitsAt bypassed t c k e ∧ (k : Int) ≤ d ∧
    g.contains e.1 = true

variable {g : Graph} {bypassed : List String} {t : String} {d : Int}

/-! ## The walk -/

/-- The walk taken one hop further, from its last link. -/
theorem walk_succ' (k : Nat) (c : String × Int) :
    g.walk t (k + 1) c = (g.walk t k c).bind fun a => g.hop t a.1 := by
  induction k generalizing c with
  | zero =>
    show (g.hop t c.1).bind (g.walk t 0) = g.hop t c.1
    cases g.hop t c.1 <;> rfl
  | succ k ih =>
    show (g.hop t c.1).bind (g.walk t (k + 1)) = ((g.hop t c.1).bind (g.walk t k)).bind _
    cases g.hop t c.1 with
    | none => rfl
    | some up => exact ih up

/-- Two links of a walk that read the same node are followed by the same walk. -/
theorem walk_periodic {i j : Nat} {c a b : String × Int} (hi : g.walk t i c = some a)
    (hj : g.walk t j c = some b) (hab : a.1 = b.1) (m : Nat) :
    g.walk t (i + 1 + m) c = g.walk t (j + 1 + m) c := by
  induction m with
  | zero => rw [Nat.add_zero, Nat.add_zero, walk_succ', walk_succ', hi, hj, Option.bind_some,
      Option.bind_some, hab]
  | succ m ih => rw [← Nat.add_assoc, ← Nat.add_assoc, walk_succ', walk_succ', ih]

theorem exitsAt_zero {c e : String × Int} : g.ExitsAt bypassed t c 0 e ↔ e = c ∧ c.1 ∉ bypassed := by
  constructor
  · rintro ⟨hw, he, -⟩
    cases hw
    exact ⟨rfl, he⟩
  · rintro ⟨rfl, he⟩
    exact ⟨rfl, he, fun j hj => absurd hj (Nat.not_lt_zero j)⟩

/-- The walk leaves the set at hop `k + 1` exactly when its start reads a
bypassed node and the walk from the first hop leaves at hop `k`. -/
theorem exitsAt_succ {c e : String × Int} {k : Nat} :
    g.ExitsAt bypassed t c (k + 1) e ↔
      c.1 ∈ bypassed ∧ ∃ up, g.hop t c.1 = some up ∧ g.ExitsAt bypassed t up k e := by
  constructor
  · rintro ⟨hw, he, hbefore⟩
    obtain ⟨a, ha, hc⟩ := hbefore 0 (Nat.succ_pos k)
    cases ha
    obtain ⟨up, hup, hw'⟩ := Option.bind_eq_some_iff.1 hw
    refine ⟨hc, up, hup, hw', he, fun j hj => ?_⟩
    obtain ⟨a, ha, hb⟩ := hbefore (j + 1) (by omega)
    refine ⟨a, ?_, hb⟩
    rw [walk, hup, Option.bind_some] at ha
    exact ha
  · rintro ⟨hc, up, hup, hw, he, hbefore⟩
    refine ⟨by rw [walk, hup, Option.bind_some]; exact hw, he, fun j hj => ?_⟩
    cases j with
    | zero => exact ⟨c, rfl, hc⟩
    | succ j =>
      obtain ⟨a, ha, hb⟩ := hbefore j (by omega)
      exact ⟨a, by rw [walk, hup, Option.bind_some]; exact ha, hb⟩

/-- A walk whose links `i < j` read the same node goes round from there, and
leaves the bypassed set at no hop after `j` if it had not left it before. -/
theorem not_exitsAt_of_repeat {c e a b : String × Int} {i j k : Nat} (hij : i < j) (hjk : j < k)
    (hi : g.walk t i c = some a) (hj : g.walk t j c = some b) (hab : a.1 = b.1) :
    ¬ g.ExitsAt bypassed t c k e := by
  rintro ⟨hw, he, hbefore⟩
  -- hop `k` is hop `k - (j - i)`, which still reads a bypassed node
  have hper := walk_periodic hi hj hab (k - j - 1)
  rw [show j + 1 + (k - j - 1) = k by omega, hw] at hper
  obtain ⟨a', ha', hin⟩ := hbefore (i + 1 + (k - j - 1)) (by omega)
  rw [ha'] at hper
  cases hper
  exact he hin

/-- **A walk that leaves the bypassed set does so within as many hops as there
are bypassed ids**: two of its first links would read the same bypassed node,
and from there it would go round without leaving. -/
theorem exitsAt_le_length {c e : String × Int} {k : Nat} (h : g.ExitsAt bypassed t c k e) :
    k ≤ bypassed.length := by
  by_contra hk
  have hk : bypassed.length < k := Nat.lt_of_not_le hk
  have hbefore := h.2.2
  -- the node read at each of the first `length + 1` links is a bypassed id
  let src : Nat → String := fun j => ((g.walk t j c).map (·.1)).getD ""
  have hsrc : ∀ j < k, ∃ a, g.walk t j c = some a ∧ src j = a.1 ∧ a.1 ∈ bypassed := by
    intro j hj
    obtain ⟨a, ha, hb⟩ := hbefore j hj
    exact ⟨a, ha, by simp [src, ha], hb⟩
  have hmaps : Set.MapsTo src (Finset.range (bypassed.length + 1)) bypassed.toFinset := by
    intro j hj
    obtain ⟨a, -, hsa, hb⟩ := hsrc j (by simp at hj; omega)
    simpa [hsa] using hb
  have hcard : bypassed.toFinset.card < (Finset.range (bypassed.length + 1)).card := by
    rw [Finset.card_range]
    exact Nat.lt_succ_of_le (List.toFinset_card_le bypassed)
  obtain ⟨i, hi, j, hj, hij, hsame⟩ := Finset.exists_ne_map_eq_of_card_lt_of_maps_to hcard hmaps
  simp only [Finset.mem_range] at hi hj
  obtain ⟨a, ha, hsa, -⟩ := hsrc i (by omega)
  obtain ⟨b, hb, hsb, -⟩ := hsrc j (by omega)
  have hab : a.1 = b.1 := hsa.symm.trans (hsame.trans hsb)
  rcases Nat.lt_or_gt_of_ne hij with hlt | hlt
  · exact not_exitsAt_of_repeat hlt (by omega) ha hb hab h
  · exact not_exitsAt_of_repeat hlt (by omega) hb ha hab.symm h

/-! ## The resolver's walk -/

/-- The types the name of an input may give. -/
def inferredTypes : List String := ["LATENT", "MODEL", "CLIP", "VAE", "CONDITIONING", "IMAGE", "MASK", "NOISE"]

theorem typeOfInputName_mem {name t : String} (h : typeOfInputName name = some t) : t ∈ inferredTypes := by
  unfold typeOfInputName at h
  dsimp only at h
  split_ifs at h <;>
    · cases h
      simp [inferredTypes]

/-- Two inferred types match exactly when they are the same: none is the
wildcard, and their case folds differ. -/
theorem typesMatch_inferred {t t' : String} (ht : t ∈ inferredTypes) (ht' : t' ∈ inferredTypes) :
    typesMatch (some t') (some t) = (t' == t) := by
  simp only [inferredTypes, List.mem_cons, List.not_mem_nil, or_false] at ht ht'
  rcases ht with rfl | rfl | rfl | rfl | rfl | rfl | rfl | rfl <;>
    rcases ht' with rfl | rfl | rfl | rfl | rfl | rfl | rfl | rfl <;> decide

/-- The resolver's hop for an inferred type is `hop`. -/
theorem stepBack_eq_hop (ht : t ∈ inferredTypes) (id : String) : g.stepBack t id = g.hop t id := by
  unfold stepBack hop
  cases g.get? id with
  | none => rfl
  | some b =>
    dsimp only [Option.bind_some]
    congr 1
    apply List.find?_congr
    rintro ⟨name, s, i⟩ -
    cases hn : typeOfInputName name with
    | none => rfl
    | some t' => exact (typesMatch_inferred ht (typeOfInputName_mem hn)).trans (by simp)

/-- **The resolver's walk with fuel `fuel` from depth `depth` ends at `e`
exactly when the walk first leaves the bypassed set at `e`, within the fuel and
with the depth reached within the limit.** -/
theorem walkWithin_eq_some (ht : t ∈ inferredTypes) :
    ∀ (fuel : Nat) (c : String × Int) (depth : Nat) (e : String × Int),
      g.walkWithin bypassed t d fuel c depth = some e ↔
        ∃ k ≤ fuel, g.ExitsAt bypassed t c k e ∧ ((depth + k : Nat) : Int) ≤ d
  | fuel, c, depth, e => by
    rw [walkWithin.eq_def]
    dsimp only
    by_cases hd : d < depth
    · -- past the limit: no exit is within it
      simp only [hd, if_true, reduceCtorEq, false_iff, not_exists, not_and]
      intro k _ _ hk
      omega
    rw [if_neg hd]
    by_cases hb : c.1 ∈ bypassed
    · have hb' : (!bypassed.contains c.1) = false := by simpa using hb
      rw [hb', if_neg Bool.false_ne_true]
      cases fuel with
      | zero =>
        -- no fuel left, and the walk has not left yet
        simp only [reduceCtorEq, false_iff, not_exists, not_and]
        intro k hk hexit _
        obtain rfl : k = 0 := by omega
        exact (exitsAt_zero.1 hexit).2 hb
      | succ fuel =>
        rw [stepBack_eq_hop ht]
        cases hup : g.hop t c.1 with
        | none =>
          simp only [reduceCtorEq, false_iff, not_exists, not_and]
          intro k _ hexit _
          cases k with
          | zero => exact (exitsAt_zero.1 hexit).2 hb
          | succ k =>
            obtain ⟨-, up, hup', -⟩ := exitsAt_succ.1 hexit
            rw [hup] at hup'
            cases hup'
        | some up =>
          dsimp only
          rw [walkWithin_eq_some ht fuel up (depth + 1) e]
          constructor
          · rintro ⟨k, hk, hexit, hkd⟩
            exact ⟨k + 1, by omega, exitsAt_succ.2 ⟨hb, up, hup, hexit⟩, by omega⟩
          · rintro ⟨k, hk, hexit, hkd⟩
            cases k with
            | zero => exact absurd hb (exitsAt_zero.1 hexit).2
            | succ k =>
              obtain ⟨-, up', hup', hexit'⟩ := exitsAt_succ.1 hexit
              rw [hup] at hup'
              cases hup'
              exact ⟨k, by omega, hexit', by omega⟩
    · -- the start reads a live node: the walk ends there, at hop 0
      have hb' : (!bypassed.contains c.1) = true := by simpa using hb
      rw [if_pos hb']
      constructor
      · rintro ⟨⟩
        exact ⟨0, Nat.zero_le _, exitsAt_zero.2 ⟨rfl, hb⟩, by omega⟩
      · rintro ⟨k, -, hexit, -⟩
        cases k with
        | zero => rw [(exitsAt_zero.1 hexit).1]
        | succ k => exact absurd (exitsAt_succ.1 hexit).1 hb

/-- **The resolver's walk ends where the walk first leaves the bypassed set**,
when that is within the hop limit: its fuel of one hop more than there are
bypassed ids is always enough. -/
theorem walkWithin_iff (ht : t ∈ inferredTypes) {c e : String × Int} :
    g.walkWithin bypassed t d (bypassed.length + 1) c 0 = some e ↔
      ∃ k, g.ExitsAt bypassed t c k e ∧ (k : Int) ≤ d := by
  rw [walkWithin_eq_some ht]
  constructor
  · rintro ⟨k, -, hexit, hkd⟩
    exact ⟨k, hexit, by omega⟩
  · rintro ⟨k, hexit, hkd⟩
    exact ⟨k, by have := exitsAt_le_length hexit; omega, hexit, by omega⟩

theorem rewireWithin_iff (ht : t ∈ inferredTypes) {c e : String × Int} :
    g.rewireWithin bypassed t d c = some e ↔
      (∃ k, g.ExitsAt bypassed t c k e ∧ (k : Int) ≤ d) ∧ g.contains e.1 = true := by
  unfold rewireWithin
  rw [← walkWithin_iff ht]
  cases hw : g.walkWithin bypassed t d (bypassed.length + 1) c 0 with
  | none => simp
  | some a =>
    obtain ⟨s, i⟩ := a
    by_cases hs : g.contains s = true
    · simp only [hs, if_true, Option.some.injEq]
      constructor
      · rintro rfl
        exact ⟨rfl, hs⟩
      · rintro ⟨rfl, -⟩
        rfl
    · simp only [hs, if_false, reduceCtorEq, false_iff, not_and]
      rintro ⟨⟩
      exact hs

/-! ## One input -/

variable {n : Node}

/-- **An input that reads a bypassed node is rewired to `e` exactly when the
walk of its type takes it there.** -/
theorem rewiredInput_eq_rewired (hd : (toString d.natAbs).length ≤ Decimal.maxIntegerDigits)
    {name s : String} {i : Int} (hs : s ∈ bypassed) (e : String × Int) :
    g.rewiredInput bypassed d n (name, .connection s i) = ([(name, .connection e.1 e.2)], []) ↔
      g.RewiresTo bypassed d name (s, i) e := by
  cases hn : typeOfInputName name with
  | none =>
    -- an input whose name has no type is removed
    simp only [rewiredInput, rewireInput, hs, hn, List.contains_eq_mem, decide_true, Bool.not_true,
      Bool.false_eq_true, if_false]
    constructor
    · rintro ⟨⟩
    · rintro ⟨t, ht, -⟩
      rw [hn] at ht
      cases ht
  | some t =>
    have ht := typeOfInputName_mem hn
    cases hr : g.rewireWithin bypassed t d (s, i) with
    | none =>
      simp only [rewiredInput, rewireInput, hs, hn, hr, rewire_of_digits hd, List.contains_eq_mem, decide_true,
        Bool.not_true, Bool.false_eq_true, if_false, bind, Except.bind, pure, Except.pure]
      constructor
      · rintro ⟨⟩
      · rintro ⟨t', ht', k, hexit, hkd, hc⟩
        obtain rfl : t' = t := Option.some.inj (ht'.symm.trans hn)
        rw [(rewireWithin_iff ht).2 ⟨⟨k, hexit, hkd⟩, hc⟩] at hr
        cases hr
    | some a =>
      simp only [rewiredInput, rewireInput, hs, hn, hr, rewire_of_digits hd, List.contains_eq_mem, decide_true,
        Bool.not_true, Bool.false_eq_true, if_false, bind, Except.bind, pure, Except.pure]
      obtain ⟨⟨k, hexit, hkd⟩, hc⟩ := (rewireWithin_iff ht).1 hr
      constructor
      · intro h
        obtain ⟨s', i'⟩ := a
        obtain ⟨es, ei⟩ := e
        obtain ⟨rfl, rfl⟩ : s' = es ∧ i' = ei := by simpa using h
        exact ⟨t, hn, k, hexit, hkd, hc⟩
      · rintro ⟨t', ht', k', hexit', hkd', hc'⟩
        obtain rfl : t' = t := Option.some.inj (ht'.symm.trans hn)
        rw [(rewireWithin_iff ht).2 ⟨⟨k', hexit', hkd'⟩, hc'⟩] at hr
        cases hr
        rfl

/-- **An input that reads a bypassed node and is rewired nowhere is removed with
exactly one warning.** -/
theorem rewiredInput_removed (hd : (toString d.natAbs).length ≤ Decimal.maxIntegerDigits)
    {name s : String} {i : Int} (hs : s ∈ bypassed)
    (hno : ∀ e, ¬ g.RewiresTo bypassed d name (s, i) e) :
    (g.rewiredInput bypassed d n (name, .connection s i)).1 = [] ∧
      (g.rewiredInput bypassed d n (name, .connection s i)).2.length = 1 := by
  cases hn : typeOfInputName name with
  | none =>
    simp [rewiredInput, rewireInput, hs, hn]
  | some t =>
    have ht := typeOfInputName_mem hn
    cases hr : g.rewireWithin bypassed t d (s, i) with
    | none =>
      simp [rewiredInput, rewireInput, hs, hn, hr, rewire_of_digits hd, bind, Except.bind, pure, Except.pure]
    | some a =>
      obtain ⟨⟨k, hexit, hkd⟩, hc⟩ := (rewireWithin_iff ht).1 hr
      exact absurd ⟨t, hn, k, hexit, hkd, hc⟩ (hno a)

/-! ## The whole graph -/

/-- **Resolution, input by input.** With some node bypassed and a hop limit of
at most `Decimal.maxIntegerDigits` digits, resolution succeeds. The result holds
the live nodes in their order, each input of each replaced by what rewiring
gives it, and the warnings in the same order; the bypassed ids are reported
removed, in node order. An input that reads no bypassed node stays as it is.
One that does is rewired to `e`, in its place, exactly when the walk of its
type leaves the bypassed set first at `e`, within the hop limit, and `e` reads
a node of the graph; otherwise it is removed with exactly one warning. -/
theorem resolveBypass_rewiring (g : Graph) (d : Int) (hB : g.bypassedIds ≠ [])
    (hd : (toString d.natAbs).length ≤ Decimal.maxIntegerDigits) :
    ∃ r, g.resolveBypass d = .ok r ∧ r.removed = g.bypassedIds ∧
      r.graph.nodes = g.liveNodes.map (fun n =>
        { n with inputs := n.inputs.flatMap fun p => (g.rewiredInput g.bypassedIds d n p).1 }) ∧
      r.warnings =
        g.liveNodes.flatMap (fun n => n.inputs.flatMap fun p => (g.rewiredInput g.bypassedIds d n p).2) ∧
      (∀ n p, (∀ s i, p.2 = .connection s i → s ∉ g.bypassedIds) →
        g.rewiredInput g.bypassedIds d n p = ([p], [])) ∧
      (∀ n name s i, s ∈ g.bypassedIds →
        (∀ e, g.rewiredInput g.bypassedIds d n (name, .connection s i) = ([(name, .connection e.1 e.2)], []) ↔
          g.RewiresTo g.bypassedIds d name (s, i) e) ∧
        ((∀ e, ¬ g.RewiresTo g.bypassedIds d name (s, i) e) →
          (g.rewiredInput g.bypassedIds d n (name, .connection s i)).1 = [] ∧
            (g.rewiredInput g.bypassedIds d n (name, .connection s i)).2.length = 1)) := by
  refine ⟨g.resolved d, resolveBypass_of_digits hd, ?_⟩
  rw [resolved, if_neg (by simpa using hB)]
  refine ⟨rfl, rfl, rfl, fun n p hp => rewiredInput_keep fun s i hv => by simpa using hp s i hv,
    fun n name s i hs => ⟨rewiredInput_eq_rewired hd hs, rewiredInput_removed hd hs⟩⟩

/-- A loader, a bypassed modifier that reads it, and a sampler that reads the
modifier. -/
def bypassedModifierGraph : Graph :=
  { nodes := [{ id := "1", classType := "CheckpointLoaderSimple" },
    { id := "2", classType := "LoraLoaderModelOnly", inputs := [("model", .connection "1" 0)], mode := 4 },
    { id := "3", classType := "KSampler", inputs := [("model", .connection "2" 0)] }] }

/-- Resolution of the bypassed modifier under the default limit: the modifier
is removed, and the sampler's input is rewired by the walk of its type. -/
theorem resolveBypass_rewiring_modifier :
    bypassedModifierGraph.bypassedIds ≠ [] ∧ (toString (10 : Int).natAbs).length ≤ Decimal.maxIntegerDigits ∧
      ∃ r, bypassedModifierGraph.resolveBypass 10 = .ok r ∧ r.removed = bypassedModifierGraph.bypassedIds ∧
        r.graph.nodes = bypassedModifierGraph.liveNodes.map (fun n =>
          { n with inputs := n.inputs.flatMap fun p =>
            (bypassedModifierGraph.rewiredInput bypassedModifierGraph.bypassedIds 10 n p).1 }) := by
  have hB : bypassedModifierGraph.bypassedIds ≠ [] := by decide
  have hd : (toString (10 : Int).natAbs).length ≤ Decimal.maxIntegerDigits := by decide
  obtain ⟨r, hr, hremoved, hnodes, -⟩ := resolveBypass_rewiring bypassedModifierGraph 10 hB hd
  exact ⟨hB, hd, r, hr, hremoved, hnodes⟩

example : (bypassedModifierGraph.resolveBypass 10).toOption.map (·.graph.nodes.map Node.connections) =
    some [[], [("model", "1", 0)]] := by
  decide

end Graph

end NodeFlow
