import NodeFlow.Proofs.Chain.Shape
/-!
# The ids a chain takes

A chain of `k` modifiers placed in a graph takes the ids `n, n + 1, …, n + k - 1`
in decimal (`freshIds`), where `n` is the graph's next id with the configured
floor. Each id is written out, so every one must have at most
`Decimal.maxIntegerDigits` digits: past that, placing the chain fails even
though the next id is known (`injectChain_id_too_long`).

When the ids can be written, appending a chain is an exact computation
(`appendChain_exact`), and injecting one is described completely
(`injectChain_exact`): with nothing to do it is refused, otherwise the graph's
nodes come first, each input that read output 0 of the model source now
reading the chain's last node, and then the chain's nodes, the first fed by the
source.
-/

namespace NodeFlow

open Json

namespace Graph

/-- The ids a chain of `k` nodes takes from `n` on: `n, n + 1, …` in decimal. -/
def freshIds (n : Int) (k : Nat) : List String := (List.range k).map fun (j : Nat) => toString (n + j)

theorem freshIds_zero (n : Int) : freshIds n 0 = [] := rfl

theorem freshIds_succ (n : Int) (k : Nat) : freshIds n (k + 1) = toString n :: freshIds (n + 1) k := by
  rw [freshIds, List.range_succ_eq_map, List.map_cons, List.map_map]
  congr 1
  · congr 1
    omega
  · apply List.map_congr_left
    intro j _
    simp only [Function.comp_apply]
    congr 1
    omega

@[simp] theorem length_freshIds (n : Int) (k : Nat) : (freshIds n k).length = k := by
  simp [freshIds]

/-- An integer of at most `Decimal.maxIntegerDigits` digits is written out. -/
theorem integerText_of_lt {m : Int} (h0 : 0 ≤ m) (hm : m < 10 ^ Decimal.maxIntegerDigits) :
    integerText m = .ok (toString m) := by
  obtain ⟨j, rfl⟩ := Int.eq_ofNat_of_zero_le h0
  have hj : j < 10 ^ Decimal.maxIntegerDigits := Int.ofNat_lt.1 (by rw [Int.natCast_pow]; exact hm)
  have hlen : (toString j).length ≤ Decimal.maxIntegerDigits := by
    rw [← String.length_toList, Json.Reader.NumberText.toList_toString_nat]
    exact (Nat.length_toDigits_le_iff (by decide) (by decide)).2 hj
  unfold integerText
  rw [Int.natAbs_natCast, if_neg (Nat.not_lt.2 hlen)]

/-- An integer of more digits is not written out. -/
theorem integerText_of_ge {j : Nat} (hj : 10 ^ Decimal.maxIntegerDigits ≤ j) :
    integerText (j : Int) = .error .tooManyDigitsToWrite := by
  have hlen : Decimal.maxIntegerDigits < (toString j).length := by
    rw [← String.length_toList, Json.Reader.NumberText.toList_toString_nat]
    exact Nat.lt_of_not_le fun h =>
      Nat.not_le_of_lt ((Nat.length_toDigits_le_iff (by decide) (by decide)).1 h) hj
  unfold integerText
  rw [Int.natAbs_natCast, if_pos hlen]

variable {g : Graph} {s : Settings}

/-- **The fold of `appendChain`, computed**: from a counter `next` whose decimal
texts name no node, each modifier goes last under the counter's text, fed by
the one before it, when every id can be written. -/
theorem appendChain_fold_exact {F : Graph × String × Int → Selection → Outcome (Graph × String × Int)}
    (hF : ∀ g prev next sel, F (g, prev, next) sel =
      integerText next >>= fun id => pure (g.insert (modifierNode s id sel prev), id, next + 1)) :
    ∀ (c : Chain) (g : Graph) (prev : String) (next : Int),
      0 ≤ next → next + c.length ≤ 10 ^ Decimal.maxIntegerDigits →
      (∀ j, next ≤ j → g.contains (toString j) = false) →
      c.foldlM F (g, prev, next) =
        .ok ({ g with nodes := g.nodes ++ chainNodes s prev ((freshIds next c.length).zip c) },
          (freshIds next c.length).getLastD prev, next + c.length)
  | [], g, prev, next, _, _, _ => by
    simp [freshIds_zero, chainNodes, pure, Except.pure]
  | sel :: c, g, prev, next, hnext, hwrite, hfresh => by
    have hlen : next + (c.length : Int) + 1 ≤ 10 ^ Decimal.maxIntegerDigits := by
      simpa [List.length_cons, Int.add_assoc] using hwrite
    rw [List.foldlM_cons, hF, integerText_of_lt hnext (by omega)]
    simp only [bind, Except.bind, pure, Except.pure]
    -- the new node takes a fresh id, so it goes last, and the counter moves on
    rw [insert_of_fresh (hfresh next (Int.le_refl next))]
    have hfresh₁ : ∀ j, next + 1 ≤ j →
        ({ g with nodes := g.nodes ++ [modifierNode s (toString next) sel prev] } : Graph).contains
          (toString j) = false := by
      intro j hj
      rw [contains_append_node, hfresh j (by omega), Bool.false_or]
      cases he : (toString next == toString j) with
      | false => exact he
      | true =>
        have := Decimal.toString_int_injective hnext (by omega) (beq_iff_eq.1 he)
        omega
    rw [appendChain_fold_exact hF c _ (toString next) (next + 1) (by omega) (by omega) hfresh₁,
      List.length_cons, freshIds_succ, List.getLastD_cons]
    simp only [List.zip_cons_cons, chainNodes, List.append_assoc, List.singleton_append]
    congr 3
    omega

/-- **Appending a chain, computed**: its nodes go last under the ids from the
next id on, when the last of them can be written. -/
theorem appendChain_exact {c : Chain} {source : String} {n : Int} (hfloor : 0 ≤ s.injectedIdFloor)
    (hn : g.nextId s.injectedIdFloor = .ok n) (hwrite : n + c.length ≤ 10 ^ Decimal.maxIntegerDigits) :
    appendChain s g c source =
      .ok ({ g with nodes := g.nodes ++ chainNodes s source ((freshIds n c.length).zip c) },
        (freshIds n c.length).getLastD source) := by
  have hn₀ : 0 ≤ n := Int.le_trans hfloor (floor_le_nextId hn)
  unfold appendChain
  rw [hn]
  simp only [bind, Except.bind]
  rw [appendChain_fold_exact (fun _ _ _ _ => rfl) c g source n hn₀ hwrite
    (fun j hj => nextId_fresh hn hfloor hj)]
  rfl

/-- The ids from the next id on name no node. -/
theorem freshIds_fresh {n : Int} {floor : Int} (hfloor : 0 ≤ floor) (hn : g.nextId floor = .ok n) {k : Nat} :
    ∀ x ∈ freshIds n k, g.contains x = false := by
  intro x hx
  obtain ⟨j, -, rfl⟩ := List.mem_map.1 hx
  exact nextId_fresh hn hfloor (by omega)

/-- Past its three guards, injecting a chain appends it and points the
consumers of the source at its end. -/
theorem injectChain_past_guards {c : Chain} {src : Node} (hc : c ≠ []) (hsrc : modelSource? s g = some src)
    (hcons : g.consumersOf src.id ≠ []) :
    g.injectChain? s c = (do
      let (g', last) ← appendChain s g c src.id
      return some ((g.consumersOf src.id).foldl (fun acc (id, name) =>
        acc.modify id fun n => n.setInput name (.connection last 0)) g')) := by
  unfold injectChain?
  simp only [List.isEmpty_eq_false_iff.2 hc, hsrc, List.isEmpty_eq_false_iff.2 hcons, Bool.false_eq_true,
    if_false]

/-- **Injecting a chain into a keyed graph, exactly.** With a floor that is not
negative, a next id `n` and ids that can be written: an empty chain, a graph
without a model source, or a source whose output 0 nothing reads leaves
nothing to do. Otherwise the chain's ids `n, n + 1, …` name no node of the
graph, and the result is the graph's nodes, in order, with every input that
read output 0 of the source reading output 0 of the chain's last node, followed
by the chain's nodes, each a modifier with its selection's name and strength
fed by output 0 of the one before it, the first by the source. -/
theorem injectChain_exact {c : Chain} {n : Int} (hk : g.Keyed) (hfloor : 0 ≤ s.injectedIdFloor)
    (hn : g.nextId s.injectedIdFloor = .ok n) (hwrite : n + c.length ≤ 10 ^ Decimal.maxIntegerDigits) :
    ((c = [] ∨ modelSource? s g = none ∨ ∃ src, modelSource? s g = some src ∧ g.consumersOf src.id = []) →
        g.injectChain? s c = .ok none) ∧
      ∀ src, modelSource? s g = some src → c ≠ [] → g.consumersOf src.id ≠ [] →
        (∀ x ∈ freshIds n c.length, g.contains x = false) ∧
        g.injectChain? s c = .ok (some { g with
          nodes := g.nodes.map (Node.redirect src.id ((freshIds n c.length).getLastD src.id)) ++
            chainNodes s src.id ((freshIds n c.length).zip c) }) := by
  refine ⟨fun hnone => ?_, fun src hsrc hc hcons => ⟨freshIds_fresh hfloor hn, ?_⟩⟩
  · -- each guard stops before anything is placed
    unfold injectChain?
    rcases hnone with rfl | hsrc | ⟨src, hsrc, hcons⟩
    · rfl
    · by_cases hc : c.isEmpty = true
      · simp [hc, pure, Except.pure]
      · simp [hc, hsrc, pure, Except.pure]
    · by_cases hc : c.isEmpty = true
      · simp [hc, pure, Except.pure]
      · simp [hc, hsrc, hcons, pure, Except.pure]
  · rw [injectChain_past_guards hc hsrc hcons, appendChain_exact hfloor hn hwrite]
    simp only [bind, Except.bind, pure, Except.pure]
    -- the chain's nodes have fresh ids, so only the graph's own nodes are redirected
    refine congrArg (fun h => Except.ok (some h)) (foldl_consumers_redirect hk (fun _ _ _ => rfl) fun m hm => ?_)
    have hin := mem_chainNodes_id hm
    rw [List.map_fst_zip (by simp)] at hin
    exact freshIds_fresh hfloor hn m.id hin

/-- A loader read by a sampler. -/
def loaderSamplerGraph : Graph :=
  { nodes := [{ id := "1", classType := "CheckpointLoaderSimple" },
    { id := "2", classType := "KSampler", inputs := [("model", .connection "1" 0)] }] }

/-- A one-modifier chain goes after the loader of a loader read by a sampler,
as the modifier `100`. -/
theorem injectChain_exact_loader_sampler :
    loaderSamplerGraph.Keyed ∧ (0 : Int) ≤ (({} : Settings)).injectedIdFloor ∧
      loaderSamplerGraph.nextId (({} : Settings)).injectedIdFloor = .ok 100 ∧
      (100 : Int) + [(⟨.str "detail", Binary64.one⟩ : Selection)].length ≤ 10 ^ Decimal.maxIntegerDigits ∧
      (([(⟨.str "detail", Binary64.one⟩ : Selection)] = [] ∨ modelSource? {} loaderSamplerGraph = none ∨
          ∃ src, modelSource? {} loaderSamplerGraph = some src ∧ loaderSamplerGraph.consumersOf src.id = []) →
        loaderSamplerGraph.injectChain? {} [⟨.str "detail", Binary64.one⟩] = .ok none) ∧
      ∀ src, modelSource? {} loaderSamplerGraph = some src → [(⟨.str "detail", Binary64.one⟩ : Selection)] ≠ [] →
        loaderSamplerGraph.consumersOf src.id ≠ [] →
        (∀ x ∈ freshIds 100 [(⟨.str "detail", Binary64.one⟩ : Selection)].length,
          loaderSamplerGraph.contains x = false) ∧
        loaderSamplerGraph.injectChain? {} [⟨.str "detail", Binary64.one⟩] = .ok (some { loaderSamplerGraph with
          nodes := loaderSamplerGraph.nodes.map (Node.redirect src.id
              ((freshIds 100 [(⟨.str "detail", Binary64.one⟩ : Selection)].length).getLastD src.id)) ++
            chainNodes {} src.id ((freshIds 100 [(⟨.str "detail", Binary64.one⟩ : Selection)].length).zip
              [⟨.str "detail", Binary64.one⟩]) }) := by
  have hk : loaderSamplerGraph.Keyed := ⟨by decide, by decide⟩
  have hn : loaderSamplerGraph.nextId (({} : Settings)).injectedIdFloor = .ok 100 := rfl
  have hw : (100 : Int) + [(⟨.str "detail", Binary64.one⟩ : Selection)].length ≤ 10 ^ Decimal.maxIntegerDigits := by
    have h3 : ((10 : Nat) : Int) ^ 3 ≤ ((10 : Nat) : Int) ^ Decimal.maxIntegerDigits := by
      rw [← Int.natCast_pow, ← Int.natCast_pow]
      exact Int.ofNat_le.2 (Nat.pow_le_pow_right (by decide) (by decide))
    exact Int.le_trans (by decide) h3
  exact ⟨hk, by decide, hn, hw, injectChain_exact hk (by decide) hn hw⟩

/-! ## Ids too long to write -/

theorem numericIds_nil (g : Graph) : ({ g with nodes := [] } : Graph).numericIds = .ok [] := rfl

/-- A node whose id is the decimal text of a number short enough to read counts
as that number among the numeric ids. -/
theorem numericIds_cons_toString {n : Node} {j : Nat} (hid : n.id = toString j)
    (hj : j < 10 ^ Decimal.maxIntegerDigits) {rest : List Node} {ids : List Int}
    (hrest : ({ g with nodes := rest } : Graph).numericIds = .ok ids) :
    ({ g with nodes := n :: rest } : Graph).numericIds = .ok ((j : Int) :: ids) := by
  have hlen : ¬Decimal.maxIntegerDigits < (toString j).length := by
    rw [← String.length_toList, Json.Reader.NumberText.toList_toString_nat]
    exact Nat.not_lt.2 ((Nat.length_toDigits_le_iff (by decide) (by decide)).2 hj)
  unfold numericIds at hrest ⊢
  rw [List.filterMapM_cons, hid, Text.isDigitText_toString, if_pos rfl, Decimal.readInteger_toString, if_neg hlen]
  simp only [bind, Except.bind, hrest, pure, Except.pure]

/-- **A chain whose first id has too many digits is not appended**, though the
next id is known. -/
theorem appendChain_too_long {c : Chain} {source : String} {n : Nat}
    (hn : g.nextId s.injectedIdFloor = .ok n) (hlong : 10 ^ Decimal.maxIntegerDigits ≤ n) (hc : c ≠ []) :
    appendChain s g c source = .error .tooManyDigitsToWrite := by
  obtain ⟨sel, rest, rfl⟩ := List.exists_cons_of_ne_nil hc
  unfold appendChain
  rw [hn]
  simp only [bind, Except.bind, List.foldlM_cons, integerText_of_ge hlong]

/-- The largest number of `maxIntegerDigits` digits: the widest id that is
read. -/
def widestId : String := toString ((10 : Nat) ^ Decimal.maxIntegerDigits - 1)

/-- A loader read by a sampler, next to a node whose id is the widest one
read. -/
def widestIdGraph : Graph :=
  { nodes := [{ id := "1", classType := "CheckpointLoaderSimple" },
    { id := "2", classType := "KSampler", inputs := [("model", .connection "1" 0)] },
    { id := widestId, classType := "PrimitiveNode" }] }

/-- With the default floor the next id of `widestIdGraph` is known, one past
its widest id, but it has one digit too many: a one-modifier chain cannot be
injected, though there is a model source with a consumer. -/
theorem injectChain_id_too_long :
    widestIdGraph.nextId 100 = .ok (10 ^ Decimal.maxIntegerDigits) ∧
      modelSource? {} widestIdGraph = some { id := "1", classType := "CheckpointLoaderSimple" } ∧
      widestIdGraph.consumersOf "1" = [("2", "model")] ∧
      widestIdGraph.injectChain? {} [⟨.str "a", Binary64.one⟩] = .error .tooManyDigitsToWrite := by
  have hbig : 10 ^ 3 ≤ 10 ^ Decimal.maxIntegerDigits := Nat.pow_le_pow_right (by decide) (by decide)
  have hwide : (10 : Nat) ^ Decimal.maxIntegerDigits - 1 < 10 ^ Decimal.maxIntegerDigits := by omega
  -- the ids read are 1, 2 and the widest one
  have hids : widestIdGraph.numericIds = .ok [1, 2, ((10 ^ Decimal.maxIntegerDigits - 1 : Nat) : Int)] :=
    numericIds_cons_toString (g := widestIdGraph) (j := 1) rfl (by omega) <|
      numericIds_cons_toString (j := 2) rfl (by omega) <| numericIds_cons_toString rfl hwide (numericIds_nil _)
  have hnext : widestIdGraph.nextId 100 = .ok (10 ^ Decimal.maxIntegerDigits) := by
    unfold nextId
    rw [hids]
    simp only [bind, Except.bind, pure, Except.pure, List.foldl_cons, List.foldl_nil, Except.ok.injEq]
    have hcast : ((10 ^ Decimal.maxIntegerDigits : Nat) : Int) = 10 ^ Decimal.maxIntegerDigits := by
      rw [Int.natCast_pow]
      rfl
    rw [← hcast]
    omega
  have hcons : widestIdGraph.consumersOf "1" = [("2", "model")] := rfl
  have happ : appendChain {} widestIdGraph [⟨.str "a", Binary64.one⟩] "1" = .error .tooManyDigitsToWrite :=
    appendChain_too_long (n := 10 ^ Decimal.maxIntegerDigits) (by rw [Int.natCast_pow]; exact hnext)
      (Nat.le_refl _) (List.cons_ne_nil _ _)
  have hsrc : modelSource? {} widestIdGraph = some { id := "1", classType := "CheckpointLoaderSimple" } := rfl
  -- the loader is the model source and the sampler reads it: the guards pass
  refine ⟨hnext, hsrc, hcons, ?_⟩
  rw [injectChain_past_guards (List.cons_ne_nil _ _) hsrc (by rw [hcons]; exact List.cons_ne_nil _ _)]
  exact congrArg (· >>= _) happ

end Graph

end NodeFlow
