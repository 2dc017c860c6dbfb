import NodeFlow.Graph.Basic
/-!
# Where connections point

`Graph.HasLink g id name s i` says that node `id` of `g` reads its input `name`
from output `i` of node `s`. A graph is `Closed` when every such source is a
node of the graph. Two relations compare a graph before and after a pass:

* `Graph.Grows g h`: `h` keeps every node id of `g`, and each connection of `h`
  is one that `g` has at the same node and input, or names a node of `h`.
  Passes that add nodes and point inputs at nodes that exist grow a graph, and
  so do passes that only rewrite literals.
* `Graph.DanglingFrom g h`: every connection of `h` that names no node of `h`
  is one that `g` has at the same node and input, naming no node of `g`
  either.

Growing keeps the dangling connections to those of the start
(`Grows.danglingFrom`), both relations compose, and a closed graph stays closed
along either (`DanglingFrom.closed`).
-/

namespace NodeFlow

theorem Node.mem_connections {n : Node} {name s : String} {i : Int} :
    (name, s, i) ∈ n.connections ↔ (name, InputValue.connection s i) ∈ n.inputs := by
  constructor
  · intro h
    obtain ⟨⟨name', v⟩, hmem, hf⟩ := List.mem_filterMap.1 h
    cases v <;> simp at hf
    obtain ⟨rfl, rfl, rfl⟩ := hf
    exact hmem
  · intro h
    exact List.mem_filterMap.2 ⟨_, h, rfl⟩

/-- Setting an input leaves the other inputs as they were. -/
theorem Inputs.mem_set {ins : Inputs} {name : String} {v : InputValue} {p : String × InputValue}
    (h : p ∈ Inputs.set ins name v) : p ∈ ins ∨ p = (name, v) := by
  unfold Inputs.set at h
  split at h
  · obtain ⟨q, hq, rfl⟩ := List.mem_map.1 h
    by_cases hn : q.1 = name
    · right
      simp [hn]
    · left
      simpa [hn] using hq
  · simpa using h

/-- The connections after setting an input are old ones, or the new value. -/
theorem Node.mem_connections_setInput {n : Node} {name name' s : String} {i : Int}
    {v : InputValue} (h : (name', s, i) ∈ (n.setInput name v).connections) :
    (name', s, i) ∈ n.connections ∨ (name' = name ∧ v = .connection s i) := by
  rw [Node.mem_connections] at h ⊢
  rcases Inputs.mem_set h with h | h
  · exact .inl h
  · simp only [Prod.mk.injEq] at h
    exact .inr ⟨h.1, h.2.symm⟩

namespace Graph

/-- Node `id` of the graph reads input `name` from output `i` of node `s`. -/
def HasLink (g : Graph) (id name s : String) (i : Int) : Prop :=
  ∃ n ∈ g.nodes, n.id = id ∧ (name, s, i) ∈ n.connections

/-- Every connection of the graph names one of its nodes. -/
def Closed (g : Graph) : Prop :=
  ∀ id name s i, g.HasLink id name s i → g.contains s = true

/-- Every connection of `h` to a missing node is one that `g` has at the same
node and input, to a node that `g` lacks too. -/
def DanglingFrom (g h : Graph) : Prop :=
  ∀ id name s i, h.HasLink id name s i → h.contains s = false →
    g.HasLink id name s i ∧ g.contains s = false

/-- `h` keeps the node ids of `g`, and each of its connections is one of `g`'s
or names a node of `h`. -/
structure Grows (g h : Graph) : Prop where
  keeps : ∀ x, g.contains x = true → h.contains x = true
  links : ∀ id name s i, h.HasLink id name s i → g.HasLink id name s i ∨ h.contains s = true

theorem contains_iff {g : Graph} {x : String} : g.contains x = true ↔ ∃ n ∈ g.nodes, n.id = x := by
  simp [contains]

theorem contains_of_mem {g : Graph} {n : Node} (h : n ∈ g.nodes) : g.contains n.id = true :=
  contains_iff.2 ⟨n, h, rfl⟩

variable {g h k : Graph}

theorem DanglingFrom.refl (g : Graph) : g.DanglingFrom g :=
  fun _ _ _ _ hl hc => ⟨hl, hc⟩

theorem DanglingFrom.trans (hgh : g.DanglingFrom h) (hhk : h.DanglingFrom k) :
    g.DanglingFrom k := by
  intro id name s i hl hc
  obtain ⟨hl', hc'⟩ := hhk id name s i hl hc
  exact hgh id name s i hl' hc'

/-- **A closed graph stays closed**: a dangling connection of `h` would be one
of `g`. -/
theorem DanglingFrom.closed (hd : g.DanglingFrom h) (hg : g.Closed) : h.Closed := by
  intro id name s i hl
  cases hc : h.contains s with
  | true => rfl
  | false =>
    obtain ⟨hl', hc'⟩ := hd id name s i hl hc
    rw [hg id name s i hl'] at hc'
    exact absurd hc' (by decide)

theorem Grows.refl (g : Graph) : g.Grows g :=
  ⟨fun _ hx => hx, fun _ _ _ _ hl => .inl hl⟩

theorem Grows.trans (hgh : g.Grows h) (hhk : h.Grows k) : g.Grows k := by
  refine ⟨fun x hx => hhk.keeps x (hgh.keeps x hx), fun id name s i hl => ?_⟩
  rcases hhk.links id name s i hl with hl' | hs
  · rcases hgh.links id name s i hl' with hg | hs'
    · exact .inl hg
    · exact .inr (hhk.keeps s hs')
  · exact .inr hs

/-- **Growing keeps dangling connections to those of the start.** -/
theorem Grows.danglingFrom (hgh : g.Grows h) : g.DanglingFrom h := by
  intro id name s i hl hc
  rcases hgh.links id name s i hl with hl' | hs
  · refine ⟨hl', ?_⟩
    cases hg : g.contains s with
    | false => rfl
    | true => rw [hgh.keeps s hg] at hc; exact absurd hc (by decide)
  · rw [hs] at hc
    exact absurd hc (by decide)

/-- A graph grows when each node of `g` has a node of `h` with its id, and each
connection of a node of `h` is one a node of `g` with that id has, or names a
node of `h`. -/
theorem grows_of_nodes
    (hkeep : ∀ n ∈ g.nodes, ∃ m ∈ h.nodes, m.id = n.id)
    (hlinks : ∀ m ∈ h.nodes, ∀ c ∈ m.connections,
      (∃ n ∈ g.nodes, n.id = m.id ∧ c ∈ n.connections) ∨ h.contains c.2.1 = true) :
    g.Grows h := by
  refine ⟨fun x hx => ?_, fun id name s i hl => ?_⟩
  · obtain ⟨n, hn, rfl⟩ := contains_iff.1 hx
    obtain ⟨m, hm, hmid⟩ := hkeep n hn
    exact contains_iff.2 ⟨m, hm, hmid⟩
  · obtain ⟨m, hm, rfl, hc⟩ := hl
    rcases hlinks m hm _ hc with ⟨n, hn, hnid, hc'⟩ | hs
    · exact .inl ⟨n, hn, hnid, hc'⟩
    · exact .inr hs

/-- A pass that changes each node in place, keeping its id and dropping or
keeping its connections, grows the graph. -/
theorem grows_map {f : Node → Node} (hid : ∀ n, (f n).id = n.id)
    (hc : ∀ n, ∀ c ∈ (f n).connections, c ∈ n.connections) :
    g.Grows { g with nodes := g.nodes.map f } := by
  apply grows_of_nodes
  · intro n hn
    exact ⟨f n, List.mem_map.2 ⟨n, hn, rfl⟩, hid n⟩
  · intro m hm c hcm
    obtain ⟨n, hn, rfl⟩ := List.mem_map.1 hm
    exact .inl ⟨n, hn, (hid n).symm, hc n c hcm⟩

theorem contains_modify {id x : String} {f : Node → Node} (hid : ∀ n, (f n).id = n.id) :
    (g.modify id f).contains x = g.contains x := by
  have key : ∀ m : Node, (if (m.id == id) = true then f m else m).id = m.id := by
    intro m
    split <;> simp [hid]
  simp only [modify, contains, List.any_map, Function.comp_def, key]

/-- Pointing one input of a node at a node of the graph grows it. -/
theorem grows_modify_setInput {id name t : String} {k : Int} (ht : g.contains t = true) :
    g.Grows (g.modify id (·.setInput name (.connection t k))) := by
  have hid : ∀ n : Node, (n.setInput name (.connection t k)).id = n.id := fun _ => rfl
  apply grows_of_nodes
  · intro n hn
    refine ⟨if n.id == id then n.setInput name (.connection t k) else n,
      List.mem_map.2 ⟨n, hn, rfl⟩, ?_⟩
    split <;> rfl
  · intro m hm c hcm
    obtain ⟨n, hn, rfl⟩ := List.mem_map.1 hm
    obtain ⟨name', s, i⟩ := c
    split at hcm
    · rcases Node.mem_connections_setInput hcm with hc | ⟨-, hv⟩
      · exact .inl ⟨n, hn, by split <;> rfl, hc⟩
      · simp only [InputValue.connection.injEq] at hv
        obtain ⟨rfl, -⟩ := hv
        right
        rw [contains_modify hid]
        exact ht
    · exact .inl ⟨n, hn, by split <;> simp_all, hcm⟩

theorem contains_insert {n : Node} {x : String} :
    (g.insert n).contains x = (g.contains x || n.id == x) := by
  unfold insert
  split
  · rename_i hn
    -- the node put in place of another has that node's id
    have key : ∀ m : Node, (if (m.id == n.id) = true then n else m).id = m.id := by
      intro m
      split <;> simp_all
    simp only [contains, List.any_map, Function.comp_def, key]
    cases hnx : (n.id == x) with
    | false => simp
    | true =>
      rw [beq_iff_eq] at hnx
      subst hnx
      rw [Bool.or_true]
      exact hn
  · simp [contains, List.any_append]

/-- Putting a node whose connections name nodes of the result grows the graph:
the node it replaces, if any, keeps its id. -/
theorem grows_insert {n : Node}
    (hn : ∀ c ∈ n.connections, (g.insert n).contains c.2.1 = true) :
    g.Grows (g.insert n) := by
  apply grows_of_nodes
  · intro m hm
    unfold insert
    split
    · exact ⟨if m.id == n.id then n else m, List.mem_map.2 ⟨m, hm, rfl⟩, by split <;> simp_all⟩
    · exact ⟨m, List.mem_append_left _ hm, rfl⟩
  · intro m hm c hcm
    unfold insert at hm
    split at hm
    · obtain ⟨m', hm', rfl⟩ := List.mem_map.1 hm
      by_cases hmn : (m'.id == n.id) = true
      · simp only [hmn, if_true] at hcm
        exact .inr (hn c hcm)
      · simp only [hmn] at hcm ⊢
        exact .inl ⟨m', hm', rfl, hcm⟩
    · rcases List.mem_append.1 hm with hm | hm
      · exact .inl ⟨m, hm, rfl, hcm⟩
      · rw [List.mem_singleton.1 hm] at hcm
        exact .inr (hn c hcm)

end Graph

end NodeFlow
