import Mathlib
import NodeFlow.Proofs.Graph.Fresh
import NodeFlow.Proofs.Chain.Grow
import NodeFlow.Proofs.Bypass.Resolve
/-!
# What injecting a chain builds

A graph read from a document is keyed: its node ids are distinct, and so are
the input names of each node. On a keyed graph, with a floor that is not
negative, `Graph.injectChain?` is a plain function of the graph
(`injectChain_eq`). The chain's nodes go last under fresh ids
(`appendChain_eq`), each fed by the one before it and the first by the model
source (`chainNodes`), and every input that read output 0 of the source reads
output 0 of the chain's last node instead (`Node.redirect`).
-/

namespace NodeFlow

/-- A value that read output 0 of `source` reads output 0 of `target`; any
other value stays. -/
def InputValue.redirect (source target : String) : InputValue → InputValue
  | .connection s i => if s == source && i == 0 then .connection target 0 else .connection s i
  | v => v

/-- The node with every input that read output 0 of `source` reading output 0
of `target`. -/
def Node.redirect (source target : String) (n : Node) : Node :=
  { n with inputs := n.inputs.map fun p => (p.1, p.2.redirect source target) }

namespace Inputs

variable {ins : Inputs} {name : String} {v : InputValue}

theorem set_of_has (h : has ins name = true) :
    set ins name v = ins.map fun p => if p.1 == name then (name, v) else p := by
  unfold set
  rw [if_pos h]

theorem has_map_of_fst {f : String × InputValue → String × InputValue} (hf : ∀ p, (f p).1 = p.1)
    (n : String) : has (ins.map f) n = has ins n := by
  simp [has, List.any_map, Function.comp_def, hf]

theorem has_of_mem {p : String × InputValue} (hp : p ∈ ins) : has ins p.1 = true := by
  simp only [has, List.any_eq_true, beq_iff_eq]
  exact ⟨p, hp, rfl⟩

end Inputs

namespace Graph

/-- A graph as a document holds it: distinct node ids, and distinct input names
in each node. -/
structure Keyed (g : Graph) : Prop where
  ids_nodup : (g.nodes.map (·.id)).Nodup
  names_nodup : ∀ n ∈ g.nodes, (n.inputs.map (·.1)).Nodup

/-- The modifier nodes of a chain placed after `source` under the given ids:
each is fed by output 0 of the one before it, the first by `source`. -/
def chainNodes (s : Settings) : String → List (String × Selection) → List Node
  | _, [] => []
  | prev, (id, sel) :: rest => modifierNode s id sel prev :: chainNodes s id rest

variable {g : Graph} {s : Settings}

theorem Keyed.eq_of_id (hk : g.Keyed) {m n : Node} (hm : m ∈ g.nodes) (hn : n ∈ g.nodes)
    (h : m.id = n.id) : m = n :=
  List.inj_on_of_nodup_map hk.ids_nodup hm hn h

theorem Keyed.eq_of_name (hk : g.Keyed) {m : Node} (hm : m ∈ g.nodes) {p q : String × InputValue}
    (hp : p ∈ m.inputs) (hq : q ∈ m.inputs) (h : p.1 = q.1) : p = q :=
  List.inj_on_of_nodup_map (hk.names_nodup m hm) hp hq h

theorem mem_chainNodes_id {prev : String} {l : List (String × Selection)} {m : Node}
    (hm : m ∈ chainNodes s prev l) : m.id ∈ l.map (·.1) := by
  induction l generalizing prev with
  | nil => exact absurd hm List.not_mem_nil
  | cons p l ih =>
    obtain ⟨id, sel⟩ := p
    rcases List.mem_cons.1 hm with rfl | hm
    · exact List.mem_cons_self
    · exact List.mem_cons_of_mem _ (ih hm)

@[simp] theorem modifierNode_id (id : String) (sel : Selection) (prev : String) :
    (modifierNode s id sel prev).id = id := rfl

theorem ids_chainNodes (prev : String) (l : List (String × Selection)) :
    (chainNodes s prev l).map (·.id) = l.map (·.1) := by
  induction l generalizing prev with
  | nil => rfl
  | cons p l ih =>
    obtain ⟨id, sel⟩ := p
    exact congrArg (id :: ·) (ih id)

/-- A modifier of a chain is live. -/
theorem chainNodes_live {prev : String} {l : List (String × Selection)} :
    ∀ m ∈ chainNodes s prev l, m.isBypassed = false := by
  induction l generalizing prev with
  | nil => exact fun _ hm => absurd hm List.not_mem_nil
  | cons p l ih =>
    obtain ⟨id, sel⟩ := p
    intro m hm
    rcases List.mem_cons.1 hm with rfl | hm
    · rfl
    · exact ih m hm

/-- A modifier of a chain reads only output 0 of the node before it. -/
theorem chainNodes_connections {prev : String} {l : List (String × Selection)} :
    ∀ m ∈ chainNodes s prev l, ∃ p ∈ prev :: l.map (·.1), m.connections = [("model", p, 0)] := by
  induction l generalizing prev with
  | nil => exact fun _ hm => absurd hm List.not_mem_nil
  | cons q l ih =>
    obtain ⟨id, sel⟩ := q
    intro m hm
    rcases List.mem_cons.1 hm with rfl | hm
    · exact ⟨prev, List.mem_cons_self, rfl⟩
    · obtain ⟨p, hp, hc⟩ := ih m hm
      exact ⟨p, List.mem_cons_of_mem _ hp, hc⟩

theorem Keyed.bypassedIds_contains (hk : g.Keyed) {m : Node} (hm : m ∈ g.nodes) :
    g.bypassedIds.contains m.id = m.isBypassed := by
  cases hb : m.isBypassed with
  | true => exact bypassedIds_contains_of_bypassed hm hb
  | false =>
    cases hc : g.bypassedIds.contains m.id with
    | false => rfl
    | true =>
      obtain ⟨n, hn, hnb, hid⟩ := mem_bypassedIds.1 (by simpa using hc)
      rw [hk.eq_of_id hn hm hid] at hnb
      rw [hnb] at hb
      cases hb

/-! ## Fresh nodes go last -/

theorem insert_of_fresh {n : Node} (h : g.contains n.id = false) :
    g.insert n = { g with nodes := g.nodes ++ [n] } := by
  unfold insert
  rw [h, if_neg Bool.false_ne_true]

theorem contains_append_node (n : Node) (x : String) :
    ({ g with nodes := g.nodes ++ [n] } : Graph).contains x = (g.contains x || n.id == x) := by
  simp [contains, List.any_append]

/-- The fold of `appendChain`, from any graph in which no decimal text from
`next` on is an id. -/
theorem appendChain_fold {F : Graph × String × Int → Selection → Outcome (Graph × String × Int)}
    (hF : ∀ g prev next sel, F (g, prev, next) sel =
      integerText next >>= fun id => pure (g.insert (modifierNode s id sel prev), id, next + 1)) :
    ∀ (c : Chain) (g : Graph) (prev : String) (next : Int) (res : Graph × String × Int),
      0 ≤ next → (∀ j, next ≤ j → g.contains (toString j) = false) →
      c.foldlM F (g, prev, next) = .ok res →
      ∃ ids : List String, ids.length = c.length ∧ ids.Nodup ∧ (∀ x ∈ ids, g.contains x = false) ∧
        res.1 = { g with nodes := g.nodes ++ chainNodes s prev (ids.zip c) } ∧
        res.2.1 = ids.getLastD prev
  | [], g, prev, next, res, _, _, h => by
    cases h
    exact ⟨[], rfl, List.nodup_nil, fun _ hx => absurd hx List.not_mem_nil, by simp [chainNodes], rfl⟩
  | sel :: c, g, prev, next, res, hnext, hfresh, h => by
    rw [List.foldlM_cons, hF] at h
    cases hid : integerText next with
    | error e =>
      rw [hid] at h
      cases h
    | ok id =>
      simp only [hid, bind, Except.bind, pure, Except.pure] at h
      have hid' := integerText_eq hid
      -- the new node takes a fresh id, so it goes last
      have hnew : g.contains id = false := hid' ▸ hfresh next (Int.le_refl next)
      rw [insert_of_fresh hnew] at h
      have hfresh₁ : ∀ j, next + 1 ≤ j →
          ({ g with nodes := g.nodes ++ [modifierNode s id sel prev] } : Graph).contains (toString j) =
            false := by
        intro j hj
        rw [contains_append_node, hfresh j (by omega), Bool.false_or]
        show (id == toString j) = false
        rw [hid']
        cases he : (toString next == toString j) with
        | false => rfl
        | true =>
          have := Decimal.toString_int_injective hnext (by omega) (beq_iff_eq.1 he)
          omega
      obtain ⟨ids, hlen, hnodup, hfresh', hres, hlast⟩ :=
        appendChain_fold hF c _ id (next + 1) res (by omega) hfresh₁ h
      have hold : ∀ x ∈ ids, g.contains x = false := fun x hx => by
        have := hfresh' x hx
        rw [contains_append_node, Bool.or_eq_false_iff] at this
        exact this.1
      refine ⟨id :: ids, by simp [hlen], List.nodup_cons.2 ⟨fun hmem => ?_, hnodup⟩, ?_, ?_, ?_⟩
      · have := hfresh' id hmem
        rw [contains_append_node, Bool.or_eq_false_iff] at this
        exact absurd (beq_self_eq_true id) (Bool.eq_false_iff.1 this.2)
      · intro x hx
        rcases List.mem_cons.1 hx with rfl | hx
        · exact hnew
        · exact hold x hx
      · rw [hres]
        simp [chainNodes, List.append_assoc]
      · rw [hlast, List.getLastD_cons]

/-- **Appending a chain puts its nodes last**, under fresh distinct ids, each
fed by the one before it. -/
theorem appendChain_eq {c : Chain} {source last : String} {h : Graph} (hfloor : 0 ≤ s.injectedIdFloor)
    (h' : appendChain s g c source = .ok (h, last)) :
    ∃ ids : List String, ids.length = c.length ∧ ids.Nodup ∧ (∀ x ∈ ids, g.contains x = false) ∧
      h = { g with nodes := g.nodes ++ chainNodes s source (ids.zip c) } ∧ last = ids.getLastD source := by
  unfold appendChain at h'
  cases hfirst : g.nextId s.injectedIdFloor with
  | error e =>
    rw [hfirst] at h'
    cases h'
  | ok first =>
    simp only [hfirst, bind, Except.bind] at h'
    split at h'
    · cases h'
    · rename_i res hfold
      cases h'
      have hfirst₀ : 0 ≤ first := Int.le_trans hfloor (floor_le_nextId hfirst)
      exact appendChain_fold (fun _ _ _ _ => rfl) c g source first res hfirst₀
        (fun j hj => nextId_fresh hfirst hfloor hj) hfold

/-! ## Consumers read the chain's end -/

/-- Setting inputs named by node id and input name to `v`, one after another,
sets exactly those inputs, when each names an input its nodes have. -/
theorem foldl_setInput_eq {F : Graph → String × String → Graph} {v : InputValue}
    (hF : ∀ acc id name, F acc (id, name) = acc.modify id fun n => n.setInput name v) :
    ∀ (l : List (String × String)) (g : Graph),
      (∀ m ∈ g.nodes, ∀ name, (m.id, name) ∈ l → Inputs.has m.inputs name = true) →
      l.foldl F g = { g with nodes := g.nodes.map fun m =>
        { m with inputs := m.inputs.map fun p => if (m.id, p.1) ∈ l then (p.1, v) else p } }
  | [], g, _ => by simp
  | (id, name) :: l, g, hhas => by
    rw [List.foldl_cons, hF]
    rw [foldl_setInput_eq hF l _ ?_]
    · -- node by node, the input set now is set again or left alone
      simp only [modify, List.map_map]
      congr 1
      apply List.map_congr_left
      intro m hm
      by_cases hid : m.id = id
      · have hname := hhas m hm name (by rw [hid]; exact List.mem_cons_self)
        simp only [Function.comp_apply, hid, beq_self_eq_true, if_true, Node.setInput,
          Inputs.set_of_has hname, List.map_map]
        congr 1
        apply List.map_congr_left
        intro p _
        by_cases hp : p.1 = name <;> simp [hp]
      · simp only [Function.comp_apply, beq_iff_eq, hid, if_false]
        congr 1
        apply List.map_congr_left
        intro p _
        simp [hid]
    · -- setting an input keeps every input name
      intro m' hm' name' hmem
      simp only [modify, List.mem_map] at hm'
      obtain ⟨m, hm, rfl⟩ := hm'
      by_cases hid : m.id = id
      · have hname := hhas m hm name (by rw [hid]; exact List.mem_cons_self)
        simp only [hid, beq_self_eq_true, if_true, Node.setInput] at hmem ⊢
        rw [Inputs.set_of_has hname, Inputs.has_map_of_fst (fun p => by split <;> simp_all)]
        exact hhas m hm name' (by rw [hid]; exact List.mem_cons_of_mem _ hmem)
      · simp only [beq_iff_eq, hid, if_false] at hmem ⊢
        exact hhas m hm name' (List.mem_cons_of_mem _ hmem)

theorem mem_consumersOf {x name source : String} :
    (x, name) ∈ g.consumersOf source ↔ ∃ n ∈ g.nodes, n.id = x ∧ (name, source, 0) ∈ n.connections := by
  simp only [consumersOf, List.mem_flatMap, List.mem_filterMap]
  constructor
  · rintro ⟨n, hn, ⟨name', s', i'⟩, hc, hf⟩
    by_cases hsi : s' = source ∧ i' = 0
    · obtain ⟨rfl, rfl⟩ := hsi
      simp only [beq_self_eq_true, Bool.and_self, if_true, Option.some.injEq, Prod.mk.injEq] at hf
      obtain ⟨rfl, rfl⟩ := hf
      exact ⟨n, hn, rfl, hc⟩
    · have : (s' == source && i' == 0) = false := by
        simpa [Bool.and_eq_false_iff] using fun h₁ h₂ => hsi ⟨h₁, h₂⟩
      simp [this] at hf
  · rintro ⟨n, hn, rfl, hc⟩
    exact ⟨n, hn, (name, source, 0), hc, by simp⟩

/-- In a keyed graph an input of a node is a consumer of `source` exactly when
it reads output 0 of `source`. -/
theorem Keyed.consumer_iff (hk : g.Keyed) {m : Node} (hm : m ∈ g.nodes) {p : String × InputValue}
    (hp : p ∈ m.inputs) (source : String) :
    (m.id, p.1) ∈ g.consumersOf source ↔ p.2 = .connection source 0 := by
  rw [mem_consumersOf]
  constructor
  · rintro ⟨n, hn, hid, hc⟩
    have hnm := hk.eq_of_id hn hm hid
    subst hnm
    have hq := hk.eq_of_name hn hp (Node.mem_connections.1 hc) rfl
    rw [hq]
  · intro hv
    refine ⟨m, hm, rfl, Node.mem_connections.2 ?_⟩
    rw [← hv]
    exact hp

/-- Setting the consumers of `source` to read `target` is redirecting them. -/
theorem consumer_set_eq_redirect (hk : g.Keyed) {m : Node} (hm : m ∈ g.nodes) {p : String × InputValue}
    (hp : p ∈ m.inputs) (source target : String) :
    (if (m.id, p.1) ∈ g.consumersOf source then (p.1, InputValue.connection target 0) else p) =
      (p.1, p.2.redirect source target) := by
  obtain ⟨name, v⟩ := p
  by_cases hv : v = .connection source 0
  · rw [if_pos ((hk.consumer_iff hm hp source).2 hv), hv]
    simp [InputValue.redirect]
  · rw [if_neg fun h => hv ((hk.consumer_iff hm hp source).1 h)]
    cases v with
    | connection s i =>
      have : (s == source && i == 0) = false := by
        simpa [Bool.and_eq_false_iff] using fun h₁ h₂ => hv (by rw [h₁, h₂])
      simp [InputValue.redirect, this]
    | literal v => rfl
    | unconnected t => rfl

/-- **Pointing the consumers of `source` at `target`**, one after another, in a
keyed graph with fresh nodes appended, redirects the graph's own nodes and
leaves the fresh ones: none of them is a consumer. -/
theorem foldl_consumers_redirect (hk : g.Keyed) {source target : String} {F : Graph → String × String → Graph}
    (hF : ∀ acc id name, F acc (id, name) = acc.modify id fun n => n.setInput name (.connection target 0))
    {extra : List Node} (hextra : ∀ m ∈ extra, g.contains m.id = false) :
    (g.consumersOf source).foldl F { g with nodes := g.nodes ++ extra } =
      { g with nodes := g.nodes.map (Node.redirect source target) ++ extra } := by
  -- a fresh node has an id of no node of the graph, so it is no consumer
  have hfresh : ∀ m ∈ extra, ∀ name, (m.id, name) ∉ g.consumersOf source := by
    intro m hm name hc
    obtain ⟨n, hn, hid, -⟩ := mem_consumersOf.1 hc
    have hnew := hextra m hm
    rw [← hid, contains_of_mem hn] at hnew
    cases hnew
  rw [foldl_setInput_eq hF]
  · -- the graph's own nodes are redirected, the fresh ones are not consumers
    simp only [List.map_append]
    congr 1
    congr 1
    · apply List.map_congr_left
      intro m hm
      simp only [Node.redirect]
      congr 1
      apply List.map_congr_left
      intro p hp
      exact consumer_set_eq_redirect hk hm hp source target
    · refine (List.map_congr_left fun m hm => ?_).trans (List.map_id _)
      simp [hfresh m hm]
  · intro m hm name hc
    rcases List.mem_append.1 hm with hm | hm
    · obtain ⟨n, hn, hid, hconn⟩ := mem_consumersOf.1 hc
      rw [← hk.eq_of_id hn hm hid]
      exact Inputs.has_of_mem (Node.mem_connections.1 hconn)
    · exact absurd hc (hfresh m hm name)

/-- **Injecting a chain into a keyed graph** puts the chain's nodes last under
fresh distinct ids, the first fed by the model source, and points every input
that read output 0 of the source at the chain's last node. -/
theorem injectChain_eq {c : Chain} {h : Graph} (hk : g.Keyed) (hfloor : 0 ≤ s.injectedIdFloor)
    (h' : g.injectChain? s c = .ok (some h)) :
    ∃ src ids, modelSource? s g = some src ∧ ids.length = c.length ∧ ids ≠ [] ∧ ids.Nodup ∧
      (∀ x ∈ ids, g.contains x = false) ∧
      h = { g with nodes := (g.nodes.map (Node.redirect src.id (ids.getLastD src.id)) ++
        chainNodes s src.id (ids.zip c)) } := by
  unfold injectChain? at h'
  split at h'
  · cases h'
  rename_i hne
  split at h'
  · rename_i src hsrc
    dsimp only at h'
    split at h'
    · cases h'
    cases happ : appendChain s g c src.id with
    | error e =>
      rw [happ] at h'
      cases h'
    | ok res =>
      obtain ⟨g', last⟩ := res
      rw [happ] at h'
      cases h'
      obtain ⟨ids, hlen, hnodup, hfresh, rfl, rfl⟩ := appendChain_eq hfloor happ
      have hids : ids ≠ [] := by
        intro hnil
        rw [hnil] at hlen
        exact hne (List.isEmpty_iff.2 (List.length_eq_zero_iff.1 hlen.symm))
      refine ⟨src, ids, hsrc, hlen, hids, hnodup, hfresh, ?_⟩
      -- each chain node has a fresh id
      refine foldl_consumers_redirect hk (fun _ _ _ => rfl) fun m hm => hfresh _ ?_
      have hin := mem_chainNodes_id hm
      rwa [List.map_fst_zip (by omega)] at hin
  · cases h'

end Graph

end NodeFlow
