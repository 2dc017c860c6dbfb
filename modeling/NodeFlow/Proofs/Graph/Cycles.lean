import Mathlib.Data.List.Chain
import Mathlib.Data.List.Nodup
import Mathlib.Data.List.TakeWhile
import Mathlib.Logic.Relation
import Mathlib.Data.List.ReduceOption
import NodeFlow.Graph.Check
import NodeFlow.Proofs.Graph.Links
import NodeFlow.Proofs.Outcome
/-!
# Cycles and the structure check

`findCycle` runs a depth-first search from each node in graph order over the
sources of each node's connections, marking the nodes on the current path and
the nodes searched through. It finds a cycle exactly when the graph has one
(`findCycle_eq_none_iff`), and what it reports is one (`isCycle_findCycle`): a
path that starts and ends at one node, steps along connections, and visits no
node twice before its end (`IsCycle`).

One invariant carries the search (`SearchInv`): the nodes marked on the path are
the frames of the stack, each frame was entered from the one below it, every
source of a frame's node that is no longer left to try is done or is the frame
above, and the done nodes are closed under sources and lie on no cycle. Each
step keeps it (`SearchInv.finish`, `SearchInv.enter`) and lowers twice the
number of unmarked nodes plus the height of the stack (`searchMeasure`), so the
fuel of twice the number of nodes and two more is never used up and the search
always runs to its end.

The structure check then reports exactly the structural faults
(`structureErrors_exact`): the error for an empty graph alone, else the errors
of the connections in node and input order, a connection failing only when its
source is missing or its index is at least the known number of the source's
outputs (`connectionError_eq_none_iff`), and last one cycle, exactly when the
graph has one. The error of an invalid index writes the index out, so the
check gives its errors when every index has at most
`Decimal.maxIntegerDigits` digits (`connectionErrors_ok`).
-/

namespace NodeFlow

/-- `p` is a cycle of `R`: it starts and ends at one node, each step is an
edge, and no node repeats before the end. -/
structure IsCycle {α : Type} (R : α → α → Prop) (p : List α) : Prop where
  length : 2 ≤ p.length
  closes : p.head? = p.getLast?
  steps : p.IsChain R
  simple : p.dropLast.Nodup

/-- A cycle closes a chain of edges from its first node back to it. -/
theorem IsCycle.transGen {α : Type} {R : α → α → Prop} {p : List α} (h : IsCycle R p) :
    ∃ a, Relation.TransGen R a a := by
  match p, h with
  | a :: b :: rest, h =>
    have hsteps := List.isChain_cons_cons.1 h.steps
    have hlast : (b :: rest).getLast (List.cons_ne_nil _ _) = a := by
      have hc := h.closes
      rw [List.getLast?_eq_some_getLast (List.cons_ne_nil _ _), List.getLast_cons (List.cons_ne_nil _ _)] at hc
      exact (Option.some.inj hc).symm
    exact ⟨a, Relation.TransGen.head' hsteps.1
      (List.relationReflTransGen_of_exists_isChain_cons rest hsteps.2 hlast)⟩

namespace Graph

/-! ## Marks -/

/-- A looked-up list with a new entry in front. -/
theorem lookup_cons_ite {β : Type} (l : List (String × β)) (k x : String) (v : β) :
    ((k, v) :: l).lookup x = if x = k then some v else l.lookup x := by
  by_cases h : x = k
  · subst h
    simp
  · have hne : (x == k) = false := by simpa using h
    rw [List.lookup_cons, hne, if_neg h]

/-- The marks with one node's mark turned to done. -/
def finishMark (marks : List (String × Visit)) (id : String) : List (String × Visit) :=
  marks.map fun m => if m.1 == id then (id, .done) else m

theorem lookup_finishMark (marks : List (String × Visit)) (id x : String) :
    (finishMark marks id).lookup x = if x = id then (marks.lookup x).map fun _ => .done else marks.lookup x := by
  induction marks with
  | nil => simp [finishMark]
  | cons m marks ih =>
    obtain ⟨k, v⟩ := m
    have hstep : finishMark ((k, v) :: marks) id =
        (if k = id then (id, Visit.done) else (k, v)) :: finishMark marks id := by
      simp [finishMark]
    rw [hstep, lookup_cons_ite]
    by_cases hk : k = id
    · subst hk
      by_cases hx : x = k <;> simp [lookup_cons_ite, hx, ih]
    · rw [if_neg hk, lookup_cons_ite, ih]
      by_cases hx : x = k
      · subst hx
        simp [hk]
      · simp [hx]

/-- A node the search has gone through. -/
def Done (marks : List (String × Visit)) (x : String) : Prop := marks.lookup x = some .done

/-! ## The search state -/

variable (adj : List (String × List String))

/-- The edges of a table of sources: from a node to each source listed for it. -/
def Succ (a b : String) : Prop := b ∈ (adj.lookup a).getD []

/-- Frame `upper` was entered from frame `lower`, and every source of `lower`'s
node that is no longer left to try is done or is `upper`'s node. -/
def Entered (marks : List (String × Visit)) (upper lower : String × List String) : Prop :=
  Succ adj lower.1 upper.1 ∧ ∀ b, Succ adj lower.1 b → b ∈ lower.2 ∨ Done marks b ∨ b = upper.1

/-- What holds of the search between steps. The stack holds the search path,
innermost frame first, each frame a node with the sources still to try. -/
structure SearchInv (marks : List (String × Visit)) (stack : List (String × List String)) : Prop where
  /-- The nodes marked on the path are those of the stack. -/
  onPath : ∀ x, marks.lookup x = some .onPath ↔ x ∈ stack.map (·.1)
  /-- No node is twice on the stack. -/
  nodup : (stack.map (·.1)).Nodup
  /-- Each frame was entered from the one below it. -/
  frames : stack.IsChain (Entered adj marks)
  /-- The sources left to try are sources of the frame's node. -/
  pending : ∀ fr ∈ stack, ∀ b ∈ fr.2, Succ adj fr.1 b
  /-- Every source of the innermost node no longer left to try is done. -/
  top : ∀ fr ∈ stack.head?, ∀ b, Succ adj fr.1 b → b ∈ fr.2 ∨ Done marks b
  /-- The done nodes are closed under sources. -/
  closed : ∀ x, Done marks x → ∀ b, Succ adj x b → Done marks b
  /-- No cycle passes a done node. -/
  acyclic : ∀ x, Done marks x → ¬ Relation.TransGen (Succ adj) x x

/-- The nodes of the table the search has not marked. -/
def unmarked (marks : List (String × Visit)) : List (String × List String) :=
  adj.filter fun e => (marks.lookup e.1).isNone

/-- What each step of the search lowers. -/
def searchMeasure (marks : List (String × Visit)) (stack : List (String × List String)) : Nat :=
  2 * (unmarked adj marks).length + stack.length

variable {adj}

/-- More done nodes keep a frame entered. -/
theorem Entered.mono {marks marks' : List (String × Visit)} (hm : ∀ x, Done marks x → Done marks' x)
    {upper lower : String × List String} (h : Entered adj marks upper lower) : Entered adj marks' upper lower :=
  ⟨h.1, fun b hb => (h.2 b hb).imp_right (Or.imp_left (hm b))⟩

/-- Everything reachable from a done node is done. -/
theorem SearchInv.done_of_reach {marks : List (String × Visit)} {stack : List (String × List String)}
    (hinv : SearchInv adj marks stack) {x y : String} (hx : Done marks x)
    (h : Relation.ReflTransGen (Succ adj) x y) : Done marks y := by
  induction h with
  | refl => exact hx
  | tail _ hab ih => exact hinv.closed _ ih _ hab

/-! ## One step -/

section Step

variable {fuel : Nat} {marks : List (String × Visit)} {id s : String} {next rest : List String}
  {below : List (String × List String)}

/-- The sources of the innermost frame still to try that are not done. -/
def untried (marks : List (String × Visit)) (next : List String) : List String :=
  next.dropWhile fun s => marks.lookup s == some .done

theorem cycleSearch_finish (h : untried marks next = []) :
    cycleSearch adj (fuel + 1) marks ((id, next) :: below) = cycleSearch adj fuel (finishMark marks id) below := by
  unfold untried at h
  rw [cycleSearch, h]
  rfl

theorem cycleSearch_found (h : untried marks next = s :: rest) (hs : marks.lookup s = some .onPath) :
    cycleSearch adj (fuel + 1) marks ((id, next) :: below) =
      (marks, some (((((id, next) :: below).map (·.1)).reverse.dropWhile (· != s)) ++ [s])) := by
  unfold untried at h
  rw [cycleSearch, h]
  simp [hs]

theorem cycleSearch_enter (h : untried marks next = s :: rest) (hs : marks.lookup s ≠ some .onPath) :
    cycleSearch adj (fuel + 1) marks ((id, next) :: below) =
      cycleSearch adj fuel ((s, .onPath) :: marks) ((s, (adj.lookup s).getD []) :: (id, rest) :: below) := by
  unfold untried at h
  rw [cycleSearch, h]
  simp [hs]

theorem done_of_mem_untried_nil {b : String} (h : untried marks next = []) (hb : b ∈ next) : Done marks b := by
  unfold untried at h
  have hall := List.dropWhile_eq_nil_iff.1 h b hb
  simpa [Done] using hall

/-- The next source to try splits the sources: done ones before it, the rest after. -/
theorem untried_cons (h : untried marks next = s :: rest) :
    ¬ Done marks s ∧ ∀ b ∈ next, Done marks b ∨ b = s ∨ b ∈ rest := by
  unfold untried at h
  have hsplit := List.takeWhile_append_dropWhile (p := fun s => marks.lookup s == some .done) (l := next)
  constructor
  · have hnot := List.head_dropWhile_not (fun s => marks.lookup s == some .done) (l := next) (by simp [h])
    simp only [h, List.head_cons] at hnot
    simpa [Done] using hnot
  · intro b hb
    rw [← hsplit, h] at hb
    rcases List.mem_append.1 hb with htake | hrest
    · have := List.mem_takeWhile_imp htake
      exact .inl (by simpa [Done] using this)
    · exact .inr (by simpa using hrest)

/-- The next source to try, when it is not on the path, is not marked. -/
theorem untried_unmarked (h : untried marks next = s :: rest) (hs : marks.lookup s ≠ some .onPath) :
    marks.lookup s = none := by
  cases hv : marks.lookup s with
  | none => rfl
  | some v =>
    cases v with
    | onPath => exact absurd hv hs
    | done => exact absurd hv (untried_cons h).1

/-- Leaving a frame whose sources are all done marks its node done. -/
theorem SearchInv.finish (hinv : SearchInv adj marks ((id, next) :: below)) (h : untried marks next = []) :
    SearchInv adj (finishMark marks id) below := by
  have hid : marks.lookup id = some .onPath := (hinv.onPath id).2 (by simp)
  have hlook : ∀ x, (finishMark marks id).lookup x = if x = id then some .done else marks.lookup x := by
    intro x
    rw [lookup_finishMark]
    by_cases hx : x = id
    · subst hx
      simp [hid]
    · simp [hx]
  have hdone : ∀ x, Done (finishMark marks id) x ↔ x = id ∨ Done marks x := by
    intro x
    by_cases hx : x = id
    · subst hx
      simp [Done, hlook]
    · simp [Done, hlook, hx]
  have hoff : id ∉ below.map (·.1) := by
    have hnd := hinv.nodup
    simp only [List.map_cons, List.nodup_cons] at hnd
    exact hnd.1
  -- every source of the node left is done
  have hsucc : ∀ b, Succ adj id b → Done marks b := by
    intro b hb
    rcases hinv.top (id, next) rfl b hb with hn | hd
    · exact done_of_mem_untried_nil h hn
    · exact hd
  refine ⟨fun x => ?_, (List.nodup_cons.1 hinv.nodup).2, ?_, fun fr hfr => hinv.pending fr (List.mem_cons_of_mem _ hfr),
    ?_, ?_, ?_⟩
  · rw [hlook]
    by_cases hx : x = id
    · subst hx
      simp [hoff]
    · simp [hx, hinv.onPath x]
  · exact hinv.frames.tail.imp fun _ _ hr => hr.mono fun b hb => (hdone b).2 (.inr hb)
  · -- the frame below was entered into the node just left, which is now done
    intro fr hfr b hb
    cases below with
    | nil => simp at hfr
    | cons lower rest =>
      simp only [List.head?_cons, Option.mem_def, Option.some.injEq] at hfr
      subst hfr
      rcases (List.isChain_cons_cons.1 hinv.frames).1.2 b hb with hl | hd | rfl
      · exact .inl hl
      · exact .inr ((hdone b).2 (.inr hd))
      · exact .inr ((hdone _).2 (.inl rfl))
  · intro x hx b hb
    rcases (hdone x).1 hx with rfl | hx
    · exact (hdone b).2 (.inr (hsucc b hb))
    · exact (hdone b).2 (.inr (hinv.closed x hx b hb))
  · -- a cycle through the node left would come back to it from a done source
    intro x hx hcyc
    rcases (hdone x).1 hx with rfl | hx
    · obtain ⟨b, hb, hback⟩ := Relation.TransGen.head'_iff.1 hcyc
      have hid_done := hinv.done_of_reach (hsucc b hb) hback
      simp [Done, hid] at hid_done
    · exact hinv.acyclic x hx hcyc

/-- Marking a node that was not marked as on the path leaves the done nodes. -/
theorem done_mark_iff (hs : marks.lookup s = none) (x : String) :
    Done ((s, .onPath) :: marks) x ↔ Done marks x := by
  by_cases hx : x = s
  · subst hx
    simp [Done, hs]
  · simp [Done, lookup_cons_ite, hx]

/-- Marking a node as on the path puts it beside the nodes already there. -/
theorem onPath_mark_iff (x : String) :
    ((s, Visit.onPath) :: marks).lookup x = some .onPath ↔ x = s ∨ marks.lookup x = some .onPath := by
  rw [lookup_cons_ite]
  by_cases hx : x = s <;> simp [hx]

/-- A node marked stays marked when another is marked. -/
theorem isSome_lookup_mark {x : String} {v : Visit} (h : (marks.lookup x).isSome) :
    (((s, v) :: marks).lookup x).isSome := by
  rw [lookup_cons_ite]
  split
  · rfl
  · exact h

/-- Marking a node that was not marked as on the path keeps the done nodes
closed under sources and off every cycle. -/
theorem SearchInv.done_mark {stack : List (String × List String)} (hinv : SearchInv adj marks stack)
    (hs : marks.lookup s = none) :
    (∀ x, Done ((s, .onPath) :: marks) x → ∀ b, Succ adj x b → Done ((s, .onPath) :: marks) b) ∧
      ∀ x, Done ((s, .onPath) :: marks) x → ¬ Relation.TransGen (Succ adj) x x :=
  have hdone := done_mark_iff hs
  ⟨fun x hx b hb => (hdone b).2 (hinv.closed x ((hdone x).1 hx) b hb), fun x hx => hinv.acyclic x ((hdone x).1 hx)⟩

/-- Entering a source that is not marked pushes it on the path. -/
theorem SearchInv.enter (hinv : SearchInv adj marks ((id, next) :: below)) (h : untried marks next = s :: rest)
    (hs : marks.lookup s ≠ some .onPath) :
    SearchInv adj ((s, .onPath) :: marks) ((s, (adj.lookup s).getD []) :: (id, rest) :: below) := by
  have hsplit := (untried_cons h).2
  have hnone := untried_unmarked h hs
  have hdone := done_mark_iff hnone
  have hsub : ∀ b, b ∈ s :: rest → b ∈ next := fun b hb => by
    rw [← h] at hb
    exact (List.dropWhile_sublist _).subset hb
  have hoff : s ∉ ((id, next) :: below).map (·.1) := fun hmem => hs ((hinv.onPath s).2 hmem)
  have hentered : Succ adj id s := hinv.pending (id, next) List.mem_cons_self s (hsub s List.mem_cons_self)
  -- the frame left below keeps its node, so it stays entered from the one below it
  have hbelow : ((id, rest) :: below).IsChain (Entered adj ((s, .onPath) :: marks)) := by
    have hframes := hinv.frames.imp fun _ _ hr => hr.mono fun b hb => (hdone b).2 hb
    cases below with
    | nil => exact .singleton _
    | cons lower below =>
      have hlower := List.isChain_cons_cons.1 hframes
      exact List.isChain_cons_cons.2 ⟨hlower.1, hlower.2⟩
  refine ⟨fun x => ?_, ?_, ?_, ?_, ?_, (hinv.done_mark hnone).1, (hinv.done_mark hnone).2⟩
  · rw [onPath_mark_iff, hinv.onPath x]
    simp
  · simp only [List.map_cons] at hoff hinv ⊢
    exact List.nodup_cons.2 ⟨hoff, hinv.nodup⟩
  · refine List.isChain_cons_cons.2 ⟨⟨hentered, fun b hb => ?_⟩, hbelow⟩
    rcases hinv.top (id, next) rfl b hb with hn | hd
    · rcases hsplit b hn with hd | rfl | hr
      · exact .inr (.inl ((hdone b).2 hd))
      · exact .inr (.inr rfl)
      · exact .inl hr
    · exact .inr (.inl ((hdone b).2 hd))
  · intro fr hfr b hb
    rcases List.mem_cons.1 hfr with rfl | hfr
    · exact hb
    rcases List.mem_cons.1 hfr with rfl | hfr
    · exact hinv.pending (id, next) List.mem_cons_self b (hsub b (List.mem_cons_of_mem _ hb))
    · exact hinv.pending fr (List.mem_cons_of_mem _ hfr) b hb
  · intro fr hfr b hb
    simp only [List.head?_cons, Option.mem_def, Option.some.injEq] at hfr
    subst hfr
    exact .inl hb

/-- The part of a path from a node on it starts at that node. -/
theorem dropWhile_ne_of_mem {s : String} : ∀ {path : List String}, s ∈ path → ∃ q, path.dropWhile (· != s) = s :: q
  | a :: path, h => by
    by_cases ha : a = s
    · subst ha
      exact ⟨path, by simp⟩
    · have hs : s ∈ path := by simpa [Ne.symm ha] using h
      obtain ⟨q, hq⟩ := dropWhile_ne_of_mem hs
      exact ⟨q, by simp [ha, hq]⟩

/-- A source on the path closes a cycle: the path from it up to the innermost
node, and back to it. -/
theorem SearchInv.found_isCycle (hinv : SearchInv adj marks ((id, next) :: below)) (h : untried marks next = s :: rest)
    (hs : marks.lookup s = some .onPath) :
    IsCycle (Succ adj) (((((id, next) :: below).map (·.1)).reverse.dropWhile (· != s)) ++ [s]) := by
  have hs_path : s ∈ (((id, next) :: below).map (·.1)).reverse := List.mem_reverse.2 ((hinv.onPath s).1 hs)
  obtain ⟨q, hq⟩ := dropWhile_ne_of_mem hs_path
  have hsuffix := List.dropWhile_suffix (l := (((id, next) :: below).map (·.1)).reverse) (· != s)
  rw [hq] at hsuffix ⊢
  -- read from the root up, the path steps along sources
  have hchain : (((id, next) :: below).map (·.1)).reverse.IsChain (Succ adj) := by
    rw [List.isChain_reverse, List.isChain_map]
    exact hinv.frames.imp fun _ _ hr => hr.1
  -- the part from `s` on ends at the innermost node, whose untried source is `s`
  have hlast : (s :: q).getLast? = some id := by
    obtain ⟨pre, hpre⟩ := hsuffix
    have hend : (((id, next) :: below).map (·.1)).reverse.getLast? = some id := by simp
    rw [← hpre, List.getLast?_append] at hend
    simpa using hend
  have hstep : Succ adj id s :=
    hinv.pending (id, next) List.mem_cons_self s ((List.dropWhile_sublist _).subset (h ▸ List.mem_cons_self))
  refine ⟨by simp, by rw [List.getLast?_concat]; rfl, ?_, ?_⟩
  · rw [List.isChain_append]
    refine ⟨hchain.suffix hsuffix, .singleton _, fun x hx y hy => ?_⟩
    rw [hlast] at hx
    simp only [Option.mem_def, Option.some.injEq, List.head?_cons] at hx hy
    rw [← hx, ← hy]
    exact hstep
  · rw [List.dropLast_concat]
    exact (List.nodup_reverse.2 hinv.nodup).sublist hsuffix.sublist

theorem unmarked_finishMark (hid : (marks.lookup id).isSome) :
    unmarked adj (finishMark marks id) = unmarked adj marks := by
  unfold unmarked
  refine List.filter_congr fun e _ => ?_
  rw [lookup_finishMark]
  by_cases he : e.1 = id
  · rw [if_pos he, he]
    cases hv : marks.lookup id with
    | none => simp [hv] at hid
    | some v => rfl
  · rw [if_neg he]

/-- Marking a node of the table lowers the number of unmarked nodes. -/
theorem length_unmarked_mark (hs : marks.lookup s = none) (hkey : ∃ e ∈ adj, e.1 = s) :
    (unmarked adj ((s, .onPath) :: marks)).length < (unmarked adj marks).length := by
  have heq : unmarked adj ((s, .onPath) :: marks) = (unmarked adj marks).filter fun e => e.1 != s := by
    unfold unmarked
    rw [List.filter_filter]
    refine List.filter_congr fun e _ => ?_
    rw [lookup_cons_ite]
    by_cases he : e.1 = s <;> simp [he]
  rw [heq, List.length_filter_lt_length_iff_exists]
  obtain ⟨e, he, rfl⟩ := hkey
  exact ⟨e, List.mem_filter.2 ⟨he, by simp [hs]⟩, by simp⟩

end Step

/-! ## A whole search -/

/-- Nothing on the path and nothing done. -/
theorem searchInv_empty : SearchInv adj [] [] :=
  ⟨fun x => by simp, .nil, .nil, fun _ h => absurd h List.not_mem_nil, fun _ h => absurd h (by simp),
    fun x hx => absurd hx (by simp [Done]), fun x hx => absurd hx (by simp [Done])⟩

/-- Starting from a root that is not marked, with nothing on the path. -/
theorem SearchInv.start {marks : List (String × Visit)} {r : String} (hinv : SearchInv adj marks [])
    (hr : marks.lookup r = none) : SearchInv adj ((r, .onPath) :: marks) [(r, (adj.lookup r).getD [])] := by
  refine ⟨fun x => ?_, List.nodup_singleton _, .singleton _, fun fr hfr b hb => ?_, fun fr hfr b hb => ?_,
    (hinv.done_mark hr).1, (hinv.done_mark hr).2⟩
  · rw [onPath_mark_iff, hinv.onPath x]
    simp
  · obtain rfl := List.mem_singleton.1 hfr
    exact hb
  · simp only [List.head?_cons, Option.mem_def, Option.some.injEq] at hfr
    subst hfr
    exact .inl hb

variable (adj) in
/-- What a search from a state gives: a cycle, or, when it finds none, a state
with nothing on the path in which every node marked before is still marked. -/
def SearchOutcome (marks : List (String × Visit)) (r : List (String × Visit) × Option (List String)) : Prop :=
  (∀ p, r.2 = some p → IsCycle (Succ adj) p) ∧
    (r.2 = none → SearchInv adj r.1 [] ∧ ∀ x, (marks.lookup x).isSome → (r.1.lookup x).isSome)

theorem SearchOutcome.of_marked {marks marks' : List (String × Visit)} {r : List (String × Visit) × Option (List String)}
    (hm : ∀ x, (marks.lookup x).isSome → (marks'.lookup x).isSome) (h : SearchOutcome adj marks' r) :
    SearchOutcome adj marks r :=
  ⟨h.1, fun hn => ⟨(h.2 hn).1, fun x hx => (h.2 hn).2 x (hm x hx)⟩⟩

/-- **The search runs to its end.** From a state that keeps the invariant,
with more fuel than the measure, the search returns a cycle or a state with
nothing on the path; the fuel never runs out first. The induction is on the
fuel, and each step lowers the measure by at least one. -/
theorem cycleSearch_spec (hkeys : ∀ a b, Succ adj a b → ∃ e ∈ adj, e.1 = b) :
    ∀ (fuel : Nat) (marks : List (String × Visit)) (stack : List (String × List String)),
      SearchInv adj marks stack → searchMeasure adj marks stack < fuel →
        SearchOutcome adj marks (cycleSearch adj fuel marks stack)
  | 0, _, _, _, hlt => absurd hlt (Nat.not_lt_zero _)
  | fuel + 1, marks, [], hinv, _ => ⟨fun p hp => by simp [cycleSearch] at hp, fun _ => ⟨hinv, fun _ hx => hx⟩⟩
  | fuel + 1, marks, (id, next) :: below, hinv, hlt => by
    have hid : marks.lookup id = some .onPath := (hinv.onPath id).2 (by simp)
    cases hd : untried marks next with
    | nil =>
      rw [cycleSearch_finish hd]
      have hmeasure : searchMeasure adj (finishMark marks id) below < fuel := by
        unfold searchMeasure at hlt ⊢
        rw [unmarked_finishMark (by simp [hid])]
        simp only [List.length_cons] at hlt
        omega
      refine (cycleSearch_spec hkeys fuel _ below (hinv.finish hd) hmeasure).of_marked fun x hx => ?_
      rw [lookup_finishMark]
      split <;> simpa using hx
    | cons s rest =>
      by_cases hs : marks.lookup s = some .onPath
      · rw [cycleSearch_found hd hs]
        exact ⟨fun p hp => (by cases hp; exact hinv.found_isCycle hd hs), fun hn => (by cases hn)⟩
      · rw [cycleSearch_enter hd hs]
        have hnone := untried_unmarked hd hs
        have hkey : ∃ e ∈ adj, e.1 = s := by
          have hmem : s ∈ next := (List.dropWhile_sublist _).subset (by unfold untried at hd; rw [hd]; simp)
          exact hkeys id s (hinv.pending (id, next) List.mem_cons_self s hmem)
        have hmeasure : searchMeasure adj ((s, .onPath) :: marks) ((s, (adj.lookup s).getD []) :: (id, rest) :: below) <
            fuel := by
          have hlt' : (unmarked adj ((s, .onPath) :: marks)).length < (unmarked adj marks).length :=
            length_unmarked_mark hnone hkey
          unfold searchMeasure at hlt ⊢
          simp only [List.length_cons] at hlt ⊢
          omega
        exact (cycleSearch_spec hkeys fuel _ _ (hinv.enter hd hs) hmeasure).of_marked fun _ hx =>
          isSome_lookup_mark hx

/-! ## The search over all roots -/

variable (adj) in
/-- One root of the search over all roots: a cycle already found stays, a root
already marked is passed over, and any other root is searched from. -/
def searchRoot (fuel : Nat) (acc : List (String × Visit) × Option (List String)) (e : String × List String) :
    List (String × Visit) × Option (List String) :=
  match acc with
  | (_, some _) => acc
  | (marks, none) =>
    if (marks.lookup e.1).isSome then acc
    else cycleSearch adj fuel ((e.1, .onPath) :: marks) [(e.1, e.2)]

variable (adj) in
/-- What the search over the roots `seen` has given: a cycle, or a state with
nothing on the path in which every root seen is marked. -/
def RootsOutcome (seen : List (String × List String)) (acc : List (String × Visit) × Option (List String)) : Prop :=
  (∀ p, acc.2 = some p → IsCycle (Succ adj) p) ∧
    (acc.2 = none → SearchInv adj acc.1 [] ∧ ∀ e ∈ seen, (acc.1.lookup e.1).isSome)

/-- The table of the first root with a name that no earlier root has. -/
theorem lookup_of_unseen {seen post : List (String × List String)} {e : String × List String}
    (hadj : adj = seen ++ e :: post) (hnew : ∀ e' ∈ seen, e'.1 ≠ e.1) : adj.lookup e.1 = some e.2 := by
  have hseen : seen.lookup e.1 = none := List.lookup_eq_none_iff.2 fun e' he' => by
    simpa using (hnew e' he').symm
  rw [hadj, List.lookup_append, hseen, Option.none_or, lookup_cons_ite, if_pos rfl]

/-- One root keeps what the search over the roots gives. -/
theorem rootsOutcome_searchRoot (hkeys : ∀ a b, Succ adj a b → ∃ e ∈ adj, e.1 = b)
    {seen post : List (String × List String)} {e : String × List String} (hadj : adj = seen ++ e :: post)
    {acc : List (String × Visit) × Option (List String)} (h : RootsOutcome adj seen acc) :
    RootsOutcome adj (seen ++ [e]) (searchRoot adj (2 * adj.length + 2) acc e) := by
  obtain ⟨marks, res⟩ := acc
  cases res with
  | some p => exact ⟨h.1, fun hn => (by cases hn)⟩
  | none =>
    obtain ⟨hinv, hseen⟩ := h.2 rfl
    by_cases hm : (marks.lookup e.1).isSome
    · -- a root already marked is passed over
      have hstep : searchRoot adj (2 * adj.length + 2) (marks, none) e = (marks, none) := by
        simp [searchRoot, hm]
      rw [hstep]
      refine ⟨h.1, fun _ => ⟨hinv, fun e' he' => ?_⟩⟩
      rcases List.mem_append.1 he' with he' | he'
      · exact hseen e' he'
      · rw [List.mem_singleton.1 he']
        exact hm
    · have hnone : marks.lookup e.1 = none := Option.not_isSome_iff_eq_none.1 hm
      have hstep : searchRoot adj (2 * adj.length + 2) (marks, none) e =
          cycleSearch adj (2 * adj.length + 2) ((e.1, .onPath) :: marks) [(e.1, e.2)] := by
        simp [searchRoot, hnone]
      -- the root is new, so its sources are the table's for it
      have hlookup : adj.lookup e.1 = some e.2 := lookup_of_unseen hadj fun e' he' hname => by
        have := hseen e' he'
        rw [hname, hnone] at this
        simp at this
      have hstart := hinv.start hnone
      rw [hlookup, Option.getD_some] at hstart
      have hmeasure : searchMeasure adj ((e.1, .onPath) :: marks) [(e.1, e.2)] < 2 * adj.length + 2 := by
        have hle : (unmarked adj ((e.1, .onPath) :: marks)).length ≤ adj.length := List.length_filter_le _ _
        unfold searchMeasure
        simp only [List.length_singleton]
        omega
      have hout := cycleSearch_spec hkeys _ _ _ hstart hmeasure
      rw [hstep]
      refine ⟨hout.1, fun hn => ⟨(hout.2 hn).1, fun e' he' => (hout.2 hn).2 e'.1 ?_⟩⟩
      -- the roots seen before stay marked, and this one is marked on the path
      rcases List.mem_append.1 he' with he' | he'
      · exact isSome_lookup_mark (hseen e' he')
      · rw [List.mem_singleton.1 he', lookup_cons_ite, if_pos rfl]
        rfl

/-- **The search over all roots.** Every cycle it reports is one, and when it
reports none, nothing is left on the path and every root is marked. -/
theorem searchRoots_spec (hkeys : ∀ a b, Succ adj a b → ∃ e ∈ adj, e.1 = b) :
    RootsOutcome adj adj (adj.foldl (searchRoot adj (2 * adj.length + 2)) ([], none)) := by
  -- the roots are searched in order; `seen` are those done
  suffices h : ∀ (post seen : List (String × List String)) acc, adj = seen ++ post → RootsOutcome adj seen acc →
      RootsOutcome adj adj (post.foldl (searchRoot adj (2 * adj.length + 2)) acc) from
    h adj [] ([], none) rfl ⟨fun p hp => (by cases hp), fun _ => ⟨searchInv_empty, fun _ he => (by cases he)⟩⟩
  intro post
  induction post with
  | nil =>
    intro seen acc hadj hacc
    rw [List.append_nil] at hadj
    subst hadj
    exact hacc
  | cons e post ih =>
    intro seen acc hadj hacc
    rw [List.foldl_cons]
    exact ih (seen ++ [e]) _ (by simp [hadj]) (rootsOutcome_searchRoot hkeys hadj hacc)

/-- When the search over all roots reports no cycle, there is none: every root
is done, and no cycle passes a done node. -/
theorem acyclic_of_searchRoots (hkeys : ∀ a b, Succ adj a b → ∃ e ∈ adj, e.1 = b)
    (h : (adj.foldl (searchRoot adj (2 * adj.length + 2)) ([], none)).2 = none) :
    ¬ ∃ a, Relation.TransGen (Succ adj) a a := by
  rintro ⟨a, hcyc⟩
  obtain ⟨hinv, hroots⟩ := (searchRoots_spec hkeys).2 h
  -- a node with a source is a root of the table
  obtain ⟨b, hab, -⟩ := Relation.TransGen.head'_iff.1 hcyc
  have hroot : ∃ e ∈ adj, e.1 = a := by
    have hsome : (adj.lookup a).isSome := by
      cases hl : adj.lookup a with
      | none => simp [Succ, hl] at hab
      | some l => rfl
    obtain ⟨e, he, hea⟩ := List.lookup_isSome_iff.1 hsome
    exact ⟨e, he, (beq_iff_eq.1 hea).symm⟩
  obtain ⟨e, he, rfl⟩ := hroot
  -- it is marked, and nothing is left on the path, so it is done
  have hdone : Done (adj.foldl (searchRoot adj (2 * adj.length + 2)) ([], none)).1 e.1 := by
    have hmarked := hroots e he
    cases hv : List.lookup e.1 (adj.foldl (searchRoot adj (2 * adj.length + 2)) ([], none)).1 with
    | none => simp [hv] at hmarked
    | some v =>
      cases v with
      | onPath => simpa using (hinv.onPath e.1).1 hv
      | done => exact hv
  exact hinv.acyclic _ hdone hcyc

/-! ## Cycles of a graph -/

/-- Node `a` reads from node `b`: one of `a`'s connections comes from `b`, and
`b` is a node of the graph. -/
def Reads (g : Graph) (a b : String) : Prop :=
  ∃ n, g.get? a = some n ∧ b ∈ n.connections.map (·.2.1) ∧ g.contains b = true

/-- The sources listed for a node are those of its connections that are nodes. -/
theorem lookup_sourceLists (g : Graph) (a : String) :
    g.sourceLists.lookup a = (g.get? a).map fun n => (n.connections.map (·.2.1)).filter g.contains := by
  unfold sourceLists get?
  induction g.nodes with
  | nil => rfl
  | cons n ns ih =>
    rw [List.map_cons, lookup_cons_ite, List.find?_cons]
    by_cases ha : a = n.id
    · simp [ha]
    · have hna : (n.id == a) = false := beq_eq_false_iff_ne.2 (Ne.symm ha)
      rw [if_neg ha, ih, hna]

theorem succ_sourceLists (g : Graph) : Succ g.sourceLists = g.Reads := by
  funext a b
  apply propext
  unfold Succ Reads
  rw [lookup_sourceLists]
  cases g.get? a with
  | none => simp
  | some n => simp

/-- Every source listed is a node, so a root of the table. -/
theorem keys_sourceLists (g : Graph) : ∀ a b, Succ g.sourceLists a b → ∃ e ∈ g.sourceLists, e.1 = b := by
  intro a b hab
  rw [succ_sourceLists] at hab
  obtain ⟨-, -, -, hb⟩ := hab
  obtain ⟨m, hm, rfl⟩ := contains_iff.1 hb
  exact ⟨_, List.mem_map_of_mem hm, rfl⟩

theorem findCycle_eq (g : Graph) :
    g.findCycle = (g.sourceLists.foldl (searchRoot g.sourceLists (2 * g.sourceLists.length + 2)) ([], none)).2 :=
  rfl

/-- **A reported cycle is one**: it starts and ends at one node, each node reads
from the next, and no node repeats before the end. -/
theorem isCycle_findCycle {g : Graph} {p : List String} (h : g.findCycle = some p) : IsCycle g.Reads p := by
  rw [← succ_sourceLists]
  exact (searchRoots_spec (keys_sourceLists g)).1 p (by rw [← findCycle_eq]; exact h)

/-- **A cycle is reported exactly when the graph has one.** -/
theorem findCycle_eq_none_iff (g : Graph) : g.findCycle = none ↔ ¬ ∃ a, Relation.TransGen g.Reads a a := by
  constructor
  · intro h
    rw [← succ_sourceLists]
    exact acyclic_of_searchRoots (keys_sourceLists g) (by rw [← findCycle_eq]; exact h)
  · intro hacyclic
    cases hc : g.findCycle with
    | none => rfl
    | some p => exact absurd (isCycle_findCycle hc).transGen hacyclic

/-! ## The structure check -/

/-- A connection the structure check lets through: its source is a node of the
graph, and its index is below the source's number of outputs when that is
known. An index below zero passes. -/
def LinkChecked (g : Graph) (schema : Schema) (c : String × String × Int) : Prop :=
  ∃ s, g.get? c.2.1 = some s ∧ (outputCount schema s = 0 ∨ c.2.2 < outputCount schema s)

section Connections

variable {g : Graph} {schema : Schema} {id : String} {c : String × String × Int}

/-- The invalid-index error is written when its index can be. -/
theorem invalidIndexError_ok {index : Int} (source : String) (count : Nat)
    (hd : (toString index.natAbs).length ≤ Decimal.maxIntegerDigits) :
    ∃ e, invalidIndexError id index source count = .ok e := by
  unfold invalidIndexError
  rw [integerText_of_digits hd]
  exact ⟨_, rfl⟩

/-- **What the check of one connection reports**: the missing-node error for a
source that is not a node, else the invalid-index error for the source. -/
theorem connectionError_some {e : String} (h : g.connectionError schema id c = .ok (some e)) :
    (g.get? c.2.1 = none ∧ e = missingSourceError id c.1 c.2.1) ∨
      ∃ s, g.get? c.2.1 = some s ∧ invalidIndexError id c.2.2 s.id (outputCount schema s) = .ok e := by
  unfold connectionError at h
  split at h
  · rename_i hs
    exact .inl ⟨hs, (Option.some.inj (Except.ok.inj h)).symm⟩
  · rename_i s hs
    dsimp only at h
    split at h
    · obtain ⟨t, ht, hte⟩ := exists_of_map_eq_ok h
      cases hte
      exact .inr ⟨s, hs, ht⟩
    · cases h

/-- **A connection passes the check exactly when it is let through.** -/
theorem connectionError_eq_none_iff : g.connectionError schema id c = .ok none ↔ LinkChecked g schema c := by
  obtain ⟨input, source, index⟩ := c
  unfold connectionError LinkChecked
  cases hs : g.get? source with
  | none => simp [pure, Except.pure]
  | some s =>
    simp only [Option.some.injEq, exists_eq_left']
    by_cases hfail : (outputCount schema s != 0 && (outputCount schema s : Int) ≤ index) = true
    · -- a failing connection reports its error, or fails to write it
      rw [if_pos hfail]
      simp only [bne_iff_ne, ne_eq, Bool.and_eq_true, decide_eq_true_eq] at hfail
      refine ⟨fun h => ?_, fun h => by omega⟩
      obtain ⟨t, -, ht⟩ := exists_of_map_eq_ok h
      cases ht
    · rw [if_neg hfail]
      simp only [bne_iff_ne, ne_eq, Bool.and_eq_true, decide_eq_true_eq, not_and, Int.not_le] at hfail
      refine ⟨fun _ => ?_, fun _ => rfl⟩
      by_cases hcount : outputCount schema s = 0
      · exact .inl hcount
      · exact .inr (hfail hcount)

/-- The check of a connection whose index can be written out gives a verdict. -/
theorem connectionError_ok (hd : (toString c.2.2.natAbs).length ≤ Decimal.maxIntegerDigits) :
    ∃ o, g.connectionError schema id c = .ok o := by
  unfold connectionError
  split
  · exact ⟨_, rfl⟩
  · dsimp only
    rename_i s _
    split
    · obtain ⟨e, he⟩ : ∃ e, invalidIndexError id c.2.2 s.id (outputCount schema s) = .ok e :=
        invalidIndexError_ok _ _ hd
      exact ⟨some e, by rw [he]; rfl⟩
    · exact ⟨none, rfl⟩

end Connections

section Nodes

variable {g : Graph} {schema : Schema} {n : Node} {es : List String}

theorem connectionErrors_eq (g : Graph) (schema : Schema) (n : Node) :
    g.connectionErrors schema n = (·.reduceOption) <$> n.connections.mapM (g.connectionError schema n.id) :=
  filterMapM_eq_map_mapM _

/-- Every error of a node's connections is the error of one of them. -/
theorem mem_connectionErrors {e : String} (h : g.connectionErrors schema n = .ok es) (he : e ∈ es) :
    ∃ c ∈ n.connections, g.connectionError schema n.id c = .ok (some e) := by
  rw [connectionErrors_eq] at h
  obtain ⟨os, hos, rfl⟩ := exists_of_map_eq_ok h
  exact exists_preimage_of_mapM_ok hos (List.reduceOption_mem_iff.1 he)

/-- A node's connections have no error exactly when each is let through. -/
theorem connectionErrors_eq_nil_iff (h : g.connectionErrors schema n = .ok es) :
    es = [] ↔ ∀ c ∈ n.connections, LinkChecked g schema c := by
  rw [connectionErrors_eq] at h
  obtain ⟨os, hos, rfl⟩ := exists_of_map_eq_ok h
  simp only [List.eq_nil_iff_forall_not_mem, List.reduceOption_mem_iff]
  constructor
  · intro hnone c hc
    obtain ⟨o, ho, hco⟩ := exists_image_of_mapM_ok hos hc
    cases o with
    | none => exact connectionError_eq_none_iff.1 hco
    | some e => exact absurd ho (hnone e)
  · intro hall e he
    obtain ⟨c, hc, hce⟩ := exists_preimage_of_mapM_ok hos he
    have hnone : g.connectionError schema n.id c = .ok none := connectionError_eq_none_iff.2 (hall c hc)
    rw [hce] at hnone
    cases hnone

/-- The connections of a node whose indices can be written out are checked
without failure. -/
theorem connectionErrors_ok
    (hd : ∀ c ∈ n.connections, (toString c.2.2.natAbs).length ≤ Decimal.maxIntegerDigits) :
    ∃ es, g.connectionErrors schema n = .ok es := by
  have hos : ∃ os, n.connections.mapM (g.connectionError schema n.id) = .ok os :=
    mapM_ok_of_forall fun c hc => connectionError_ok (hd c hc)
  obtain ⟨os, hos⟩ := hos
  exact ⟨os.reduceOption, by rw [connectionErrors_eq, hos]; rfl⟩

end Nodes

/-- A text begins with what the text it extends begins with. -/
theorem prefix_toList_append {a x : String} (y : String) (h : a.toList <+: x.toList) :
    a.toList <+: (x ++ y).toList := by
  rw [String.toList_append]
  exact h.trans (List.prefix_append _ _)

/-- Every error of a connection names the node it is in. -/
theorem prefix_connectionError {g : Graph} {schema : Schema} {id : String} {c : String × String × Int}
    {e : String} (he : g.connectionError schema id c = .ok (some e)) : "Node '".toList <+: e.toList := by
  rcases connectionError_some he with ⟨-, rfl⟩ | ⟨s, -, hs⟩
  · unfold missingSourceError
    repeat apply prefix_toList_append
    exact List.prefix_refl _
  · unfold invalidIndexError at hs
    obtain ⟨t, -, hs⟩ := exists_of_bind_eq_ok hs
    cases hs
    repeat apply prefix_toList_append
    exact List.prefix_refl _

/-- The text of the error for a cycle. -/
theorem prefix_cycleError (c : List String) :
    "Workflow contains a cycle: ".toList <+: ("Workflow contains a cycle: " ++ " -> ".intercalate c).toList :=
  prefix_toList_append _ (List.prefix_refl _)

theorem structureErrors_of_nil {g : Graph} {schema : Schema} (h : g.nodes = []) :
    g.structureErrors schema = .ok ["Workflow has no nodes"] := by
  unfold structureErrors
  rw [h]
  rfl

/-- A graph with nodes gets the errors of its connections, node by node, and
then the error for a cycle. -/
theorem structureErrors_of_ne_nil {g : Graph} {schema : Schema} (h : g.nodes ≠ []) :
    g.structureErrors schema = g.nodes.mapM (g.connectionErrors schema) >>= fun linkErrors =>
      .ok (linkErrors.flatten ++
        (g.findCycle.map fun c => "Workflow contains a cycle: " ++ " -> ".intercalate c).toList) := by
  unfold structureErrors
  rw [if_neg (by simpa using h)]
  cases g.findCycle <;> rfl

/-- The connections of a graph have no error at all exactly when each is let
through. -/
theorem flatten_eq_nil_iff_linkChecked {g : Graph} {schema : Schema} {linkErrors : List (List String)}
    (h : g.nodes.mapM (g.connectionErrors schema) = .ok linkErrors) :
    linkErrors.flatten = [] ↔ ∀ n ∈ g.nodes, ∀ c ∈ n.connections, LinkChecked g schema c := by
  rw [List.flatten_eq_nil_iff]
  constructor
  · intro hnil n hn c hc
    obtain ⟨es, hes, hnes⟩ := exists_image_of_mapM_ok h hn
    exact (connectionErrors_eq_nil_iff hnes).1 (hnil es hes) c hc
  · intro hall es hes
    obtain ⟨n, hn, hnes⟩ := exists_preimage_of_mapM_ok h hes
    exact (connectionErrors_eq_nil_iff hnes).2 (hall n hn)

/-- The error for a cycle is given exactly when some node reaches itself. -/
theorem cycleErrors_eq_nil_iff (g : Graph) :
    (g.findCycle.map fun c => "Workflow contains a cycle: " ++ " -> ".intercalate c).toList = [] ↔
      ¬ ∃ a, Relation.TransGen g.Reads a a := by
  rw [← findCycle_eq_none_iff g]
  cases g.findCycle <;> simp

/-- No error of a graph with nodes says it has none: each begins with the node
or the cycle it is about. -/
theorem noNodesError_not_mem {g : Graph} {schema : Schema} {linkErrors : List (List String)}
    (h : g.nodes.mapM (g.connectionErrors schema) = .ok linkErrors) :
    "Workflow has no nodes" ∉ linkErrors.flatten ++
      (g.findCycle.map fun c => "Workflow contains a cycle: " ++ " -> ".intercalate c).toList := by
  intro hmem
  rcases List.mem_append.1 hmem with hconn | hcyc
  · obtain ⟨es, hes, he⟩ := List.mem_flatten.1 hconn
    obtain ⟨n, -, hn⟩ := exists_preimage_of_mapM_ok h hes
    obtain ⟨c, -, hc⟩ := mem_connectionErrors hn he
    exact absurd (prefix_connectionError hc) (by decide)
  · cases hc : g.findCycle with
    | none => simp [hc] at hcyc
    | some c =>
      simp only [hc, Option.map_some, Option.toList_some, List.mem_singleton] at hcyc
      have hpre := prefix_cycleError c
      rw [← hcyc] at hpre
      exact absurd hpre (by decide)

/-- **The structure check reports exactly the structural faults**, when every
output index can be written out. An empty graph gets the one error that says
so, and only an empty graph gets it. Any other graph gets the errors of its
connections, node by node in input order, and then one error for a cycle, when
there is one. A connection fails only when its source is not a node or when its
index is at least the known number of the source's outputs; an index below zero
passes. The cycle is reported exactly when some node reaches itself through the
nodes it reads from, and the path reported is a cycle. So a graph passes exactly
when it has a node, every connection is let through, and no node reaches
itself. -/
theorem structureErrors_exact (g : Graph) (schema : Schema)
    (hdigits : ∀ n ∈ g.nodes, ∀ c ∈ n.connections, (toString c.2.2.natAbs).length ≤ Decimal.maxIntegerDigits) :
    ∃ errs, g.structureErrors schema = .ok errs ∧
      (errs = ["Workflow has no nodes"] ↔ g.nodes = []) ∧
      (g.nodes ≠ [] → ∃ linkErrors, g.nodes.mapM (g.connectionErrors schema) = .ok linkErrors ∧
        errs = linkErrors.flatten ++
          (g.findCycle.map fun c => "Workflow contains a cycle: " ++ " -> ".intercalate c).toList) ∧
      (∀ n ∈ g.nodes, ∃ es, g.connectionErrors schema n = .ok es ∧
        (es = [] ↔ ∀ c ∈ n.connections, LinkChecked g schema c)) ∧
      (g.findCycle = none ↔ ¬ ∃ a, Relation.TransGen g.Reads a a) ∧
      (∀ p, g.findCycle = some p → IsCycle g.Reads p) ∧
      (errs = [] ↔
        g.nodes ≠ [] ∧ (∀ n ∈ g.nodes, ∀ c ∈ n.connections, LinkChecked g schema c) ∧
          ¬ ∃ a, Relation.TransGen g.Reads a a) := by
  have hnodes : ∀ n ∈ g.nodes, ∃ es, g.connectionErrors schema n = .ok es ∧
      (es = [] ↔ ∀ c ∈ n.connections, LinkChecked g schema c) := by
    intro n hn
    obtain ⟨es, hes⟩ : ∃ es, g.connectionErrors schema n = .ok es := connectionErrors_ok (hdigits n hn)
    exact ⟨es, hes, connectionErrors_eq_nil_iff hes⟩
  by_cases hne : g.nodes = []
  · -- an empty graph: the one error, and nothing else holds
    refine ⟨_, structureErrors_of_nil hne, ⟨fun _ => hne, fun _ => rfl⟩, fun h => absurd hne h,
      hnodes, findCycle_eq_none_iff g, fun _ => isCycle_findCycle, ⟨fun h => (by cases h), fun h => absurd hne h.1⟩⟩
  obtain ⟨linkErrors, hlinks⟩ := mapM_ok_of_forall fun n hn => (hnodes n hn).imp fun _ h => h.1
  have hstruct : g.structureErrors schema = _ := structureErrors_of_ne_nil hne
  rw [hlinks] at hstruct
  refine ⟨_, hstruct, ⟨fun h => ?_, fun h => absurd h hne⟩, fun _ => ⟨_, hlinks, rfl⟩, hnodes,
    findCycle_eq_none_iff g, fun _ => isCycle_findCycle, ?_⟩
  · refine absurd ?_ (noNodesError_not_mem hlinks)
    rw [h]
    exact List.mem_singleton_self _
  · -- the graph has nodes, so it passes when its connections and its reads do
    rw [List.append_eq_nil_iff, flatten_eq_nil_iff_linkChecked hlinks, cycleErrors_eq_nil_iff]
    exact ⟨fun h => ⟨hne, h⟩, fun h => h.2⟩

/-- A loader with three outputs and a sampler reading its model from output -1. -/
def loaderSampler : Graph :=
  { nodes :=
      [{ id := "1", classType := "CheckpointLoaderSimple" },
       { id := "2", classType := "KSampler", inputs := [("model", .connection "1" (-1))] }] }

/-- The schema of the loader: a model, a text encoder and an image decoder. -/
def loaderSchema : Schema :=
  { types := [{ classType := "CheckpointLoaderSimple",
                outputs := [⟨"MODEL", "MODEL"⟩, ⟨"CLIP", "CLIP"⟩, ⟨"VAE", "VAE"⟩] }] }

/-- The one index of the loader and sampler is written out, so their check
succeeds, and the two nodes are not the empty graph's error. -/
theorem structureErrors_exact_loaderSampler :
    (∀ n ∈ loaderSampler.nodes, ∀ c ∈ n.connections,
        (toString c.2.2.natAbs).length ≤ Decimal.maxIntegerDigits) ∧
      ∃ errs, loaderSampler.structureErrors loaderSchema = .ok errs ∧
        (errs = ["Workflow has no nodes"] ↔ loaderSampler.nodes = []) := by
  have hd : ∀ n ∈ loaderSampler.nodes, ∀ c ∈ n.connections,
      (toString c.2.2.natAbs).length ≤ Decimal.maxIntegerDigits := by decide
  obtain ⟨errs, herrs, hempty, -⟩ := structureErrors_exact loaderSampler loaderSchema hd
  exact ⟨hd, errs, herrs, hempty⟩

/-- A connection from output -1 of a node with three outputs is no valid
position, yet the structure check reports nothing. -/
theorem structureErrors_pass_negative_index :
    loaderSampler.structureErrors loaderSchema = .ok [] ∧
      ∃ n ∈ loaderSampler.nodes, ∃ c ∈ n.connections, ∃ s, loaderSampler.get? c.2.1 = some s ∧
        c.2.2 < 0 ∧ outputCount loaderSchema s = 3 := by
  refine ⟨rfl, _, List.mem_cons_of_mem _ List.mem_cons_self, ("model", "1", -1), ?_, _, rfl, by decide, rfl⟩
  simp [Node.connections]

end Graph

end NodeFlow
