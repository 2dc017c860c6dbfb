import NodeFlow.Proofs.Template.Filled
import NodeFlow.Proofs.Graph.Canonical
import NodeFlow.Submission.Compile
import NodeFlow.Proofs.Layout.Reimport
/-!
# Passes that only rewrite literals

Filling placeholders, writing a seed and applying overrides change the literal
values of inputs and nothing else (`Graph.Relit`): the nodes keep their ids,
order, class types, titles, modes and outputs, each node keeps its input names
in order with every connection and open slot as it was, and groups, notes,
metadata and the document shape stay.

Filling appends one input per input and one node per node, so a successful fill,
from any values, relates the graphs in order (`foldlM_append_forall₂`). A seed
and an override both write a literal into a named input that holds one
(`Node.writeLiteral`); in a node of distinct input names, as a document's are,
a run of such writes leaves each input with the value written to it last
(`Node.writeLiterals_eq`). So each pass is pinned down input by input:

* filling changes a text only if it holds a placeholder or is the old fixed
  image file name (`Template.Substitutes`);
* writing a seed sets exactly the literal `seed` and `noise_seed` inputs;
* an override map sets exactly the literal inputs it lists for a node's id,
  each to the value it lists last (`Graph.overrideFor`).
-/

namespace NodeFlow

open Json

namespace InputValue

/-- `w` is `v` with at most its literal changed, by a change `P` allows. -/
def Relit (P : Value → Value → Prop) : InputValue → InputValue → Prop
  | .literal x, .literal y => P x y
  | .literal _, _ => False
  | .connection s i, w => w = .connection s i
  | .unconnected t, w => w = .unconnected t

theorem Relit.refl {P : Value → Value → Prop} (hP : ∀ x, P x x) : ∀ v : InputValue, Relit P v v
  | .literal x => hP x
  | .connection _ _ => rfl
  | .unconnected _ => rfl

/-- A value with its literal, if it holds one, replaced. -/
def setLiteral (y : Value) : InputValue → InputValue
  | .literal _ => .literal y
  | v => v

/-- A value with its literal replaced by the value given, if any. -/
def overwrite (v : InputValue) : Option Value → InputValue
  | some y => v.setLiteral y
  | none => v

theorem setLiteral_setLiteral (x y : Value) (v : InputValue) : (v.setLiteral x).setLiteral y = v.setLiteral y := by
  cases v <;> rfl

/-- Overwriting after a write is the later of the two writes. -/
theorem overwrite_setLiteral (v : InputValue) (x : Value) (o : Option Value) :
    (v.setLiteral x).overwrite o = v.overwrite (o.or (some x)) := by
  cases o <;> simp [overwrite, setLiteral_setLiteral]

/-- An overwrite changes a literal, as `P` allows for every value it can write. -/
theorem relit_overwrite {P : Value → Value → Prop} (o : Option Value) (hP : ∀ x, P x (o.getD x)) :
    ∀ v : InputValue, Relit P v (v.overwrite o)
  | .literal x => by cases o <;> exact hP x
  | .connection _ _ => by cases o <;> rfl
  | .unconnected _ => by cases o <;> rfl

end InputValue

namespace Node

/-- `m` is `n` with only literal values changed, each change allowed by `P` for
the node's id and the input's name. -/
structure Relit (P : String → String → Value → Value → Prop) (n m : Node) : Prop where
  id : m.id = n.id
  classType : m.classType = n.classType
  title : m.title = n.title
  mode : m.mode = n.mode
  outputs : m.outputs = n.outputs
  inputs : List.Forall₂ (fun p q => q.1 = p.1 ∧ InputValue.Relit (P n.id p.1) p.2 q.2) n.inputs m.inputs

variable {P : String → String → Value → Value → Prop}

/-- A node whose inputs are mapped one by one, each keeping its name and
changing at most its literal. -/
theorem relit_map {n : Node} {f : String × InputValue → String × InputValue}
    (hf : ∀ p ∈ n.inputs, (f p).1 = p.1 ∧ InputValue.Relit (P n.id p.1) p.2 (f p).2) :
    Relit P n { n with inputs := n.inputs.map f } where
  id := rfl
  classType := rfl
  title := rfl
  mode := rfl
  outputs := rfl
  inputs := List.forall₂_map_right_iff.2 (List.forall₂_same.2 hf)

/-- Set a named input that holds a literal to a new literal; any other input,
and a node without the name, stay. -/
def writeLiteral (n : Node) (name : String) (y : Value) : Node :=
  match Inputs.get? n.inputs name with
  | some (.literal _) => n.setInput name (.literal y)
  | _ => n

/-- Write literals in turn. -/
def writeLiterals (n : Node) (ws : Fields) : Node := ws.foldl (fun m w => m.writeLiteral w.1 w.2) n

/-- The input names of a node are distinct. -/
def NamesDistinct (n : Node) : Prop := (n.inputs.map (·.1)).Nodup

variable {n : Node} {name : String}

/-- Mapping the inputs by a function that fixes each of them leaves the node. -/
theorem map_inputs_of_fixed {f : String × InputValue → String × InputValue} (hf : ∀ p ∈ n.inputs, f p = p) :
    { n with inputs := n.inputs.map f } = n := by
  have hmap : n.inputs.map f = n.inputs :=
    (List.map_congr_left hf : n.inputs.map f = n.inputs.map fun p => p).trans (List.map_id' _)
  rw [hmap]

/-- In a node of distinct input names, the input a lookup finds is the only one
of its name. -/
theorem eq_of_get? {w : InputValue} (hnd : n.NamesDistinct) (h : Inputs.get? n.inputs name = some w)
    {p : String × InputValue} (hp : p ∈ n.inputs) (hname : p.1 = name) : p.2 = w := by
  obtain ⟨q, hq, rfl⟩ := Option.map_eq_some_iff.1 h
  have hqn : q.1 = name := by simpa using List.find?_some hq
  have hpq : p = q := List.inj_on_of_nodup_map hnd hp (List.mem_of_find?_eq_some hq) (hname.trans hqn.symm)
  rw [hpq]

theorem get?_eq_none_iff : Inputs.get? n.inputs name = none ↔ ∀ p ∈ n.inputs, p.1 ≠ name := by
  simp [Inputs.get?]

/-- **A literal write, as a map.** In a node of distinct input names, writing a
literal sets the input of that name, if it holds a literal, and nothing else. -/
theorem writeLiteral_eq (hnd : n.NamesDistinct) (y : Value) :
    n.writeLiteral name y =
      { n with inputs := n.inputs.map fun p => if p.1 = name then (p.1, p.2.setLiteral y) else p } := by
  unfold writeLiteral
  cases hget : Inputs.get? n.inputs name with
  | none =>
    -- no input has the name, so the map changes nothing
    have hall := get?_eq_none_iff.1 hget
    exact (map_inputs_of_fixed fun p hp => if_neg (hall p hp)).symm
  | some w =>
    have hw : ∀ p ∈ n.inputs, p.1 = name → p.2 = w := fun p hp hname => eq_of_get? hnd hget hp hname
    have hhas : Inputs.has n.inputs name = true := by
      obtain ⟨q, hq, -⟩ := Option.map_eq_some_iff.1 hget
      have hqn : (q.1 == name) = true := by simpa using List.find?_some hq
      exact List.any_eq_true.2 ⟨q, List.mem_of_find?_eq_some hq, hqn⟩
    cases w with
    | literal x =>
      dsimp only
      simp only [setInput, Inputs.set, hhas, if_true]
      congr 1
      refine List.map_congr_left fun p hp => ?_
      by_cases hname : p.1 = name
      · rw [if_pos (beq_iff_eq.2 hname), if_pos hname, hw p hp hname, ← hname]
        rfl
      · rw [if_neg (by simpa using hname), if_neg hname]
    | connection s i | unconnected t =>
      dsimp only
      -- the named input holds no literal, so setting its literal changes nothing
      refine (map_inputs_of_fixed fun p hp => ?_).symm
      by_cases hname : p.1 = name
      · have hkeep : p.2.setLiteral y = p.2 := by
          rw [hw p hp hname]
          rfl
        rw [if_pos hname, hkeep]
      · rw [if_neg hname]

theorem namesDistinct_writeLiteral (hnd : n.NamesDistinct) (y : Value) : (n.writeLiteral name y).NamesDistinct := by
  have hnames : (n.inputs.map fun p => if p.1 = name then (p.1, p.2.setLiteral y) else p).map (·.1) =
      n.inputs.map (·.1) := by
    rw [List.map_map]
    refine List.map_congr_left fun p _ => ?_
    by_cases hname : p.1 = name <;> simp [hname]
  unfold NamesDistinct
  rw [writeLiteral_eq hnd]
  dsimp only
  rw [hnames]
  exact hnd

/-- **A run of literal writes leaves each literal with the value written to it
last.** -/
theorem writeLiterals_eq : ∀ (ws : Fields) {n : Node}, n.NamesDistinct →
    n.writeLiterals ws = { n with inputs := n.inputs.map fun p => (p.1, p.2.overwrite (Fields.get? ws.reverse p.1)) }
  | [], n, _ => (map_inputs_of_fixed fun _ _ => rfl).symm
  | w :: ws, n, hnd => by
    have hstep : n.writeLiterals (w :: ws) = (n.writeLiteral w.1 w.2).writeLiterals ws := rfl
    rw [hstep, writeLiterals_eq ws (namesDistinct_writeLiteral hnd w.2), writeLiteral_eq hnd]
    simp only [List.map_map, List.reverse_cons, Json.Fields.get?_append]
    congr 1
    refine List.map_congr_left fun p _ => ?_
    -- the write of `w` comes before every write of `ws`
    have hw : Fields.get? [w] p.1 = if p.1 = w.1 then some w.2 else none := by
      by_cases h : p.1 = w.1
      · simp [Fields.get?, h]
      · simp [Fields.get?, h, Ne.symm h]
    by_cases hname : p.1 = w.1
    · simp only [Function.comp_apply, if_pos hname, hw, InputValue.overwrite_setLiteral]
    · simp only [Function.comp_apply, if_neg hname, hw, Option.or_none]

@[simp] theorem writeLiterals_nil (n : Node) : n.writeLiterals [] = n := rfl

/-- Writing literals keeps a node's id. -/
theorem id_writeLiterals (ws : Fields) : ∀ n : Node, (n.writeLiterals ws).id = n.id := by
  induction ws with
  | nil => exact fun _ => rfl
  | cons w ws ih =>
    intro n
    show ((n.writeLiteral w.1 w.2).writeLiterals ws).id = n.id
    rw [ih]
    unfold writeLiteral
    split <;> rfl

theorem writeLiterals_append (ws ws' : Fields) (n : Node) :
    n.writeLiterals (ws ++ ws') = (n.writeLiterals ws).writeLiterals ws' :=
  List.foldl_append

end Node

/-! ## Filling -/

section Folds

variable {α γ δ ε : Type}

/-- **A fold that appends one image per element, in order**: the images it
appends correspond to the elements one to one. -/
theorem foldlM_append_forall₂ {R : α → γ → Prop} {f : List γ × δ → α → Except ε (List γ × δ)}
    (hf : ∀ acc a acc', f acc a = .ok acc' → ∃ y, acc'.1 = acc.1 ++ [y] ∧ R a y) :
    ∀ (l : List α) (acc res : List γ × δ), l.foldlM f acc = .ok res →
      ∃ ys, res.1 = acc.1 ++ ys ∧ List.Forall₂ R l ys
  | [], acc, res, h => by
    cases h
    exact ⟨[], by simp, .nil⟩
  | a :: l, acc, res, h => by
    rw [List.foldlM_cons] at h
    obtain ⟨acc₁, hfa, hrest⟩ := exists_of_bind_eq_ok h
    obtain ⟨y, hy, hry⟩ := hf acc a acc₁ hfa
    obtain ⟨ys, hys, hall⟩ := foldlM_append_forall₂ hf l acc₁ res hrest
    exact ⟨y :: ys, by rw [hys, hy, List.append_assoc, List.singleton_append], .cons hry hall⟩

end Folds

namespace Template

/-- What filling may do to a literal: leave it, or change a text that holds a
placeholder or is the old fixed image file name. -/
def Substitutes (x y : Value) : Prop :=
  y = x ∨ ∃ text, x = .str text ∧ (placeholderNames text ≠ [] ∨ text = defaultImageName)

/-- Filling a text, from any values, changes it only if it holds a placeholder. -/
theorem substitutes_fillText {values : Value} {text : String} {r : TextFill}
    (h : fillText values text = .ok r) : Substitutes (.str text) r.value := by
  by_cases hnames : placeholderNames text = []
  · -- a text without placeholders asks for no value and is kept
    have hkeep : fillText values text = .ok ⟨.str text, [], placeholderNames text⟩ :=
      fillText_unsupplied fun name hn => by simp [hnames] at hn
    rw [hkeep] at h
    cases h
    exact .inl rfl
  · exact .inr ⟨text, rfl, .inl hnames⟩

end Template

namespace Node

variable {values : Value} {image : Option Value}

/-- Filling an input keeps its name and changes at most its literal, as
filling may. -/
theorem fillInput_relit {acc acc' : Inputs × List String × List String} {input : String × InputValue}
    (h : fillInput values image acc input = .ok acc') :
    ∃ q, acc'.1 = acc.1 ++ [q] ∧ q.1 = input.1 ∧ InputValue.Relit Template.Substitutes input.2 q.2 := by
  obtain ⟨name, v⟩ := input
  unfold fillInput at h
  dsimp only at h
  split at h
  · split at h
    · -- the old fixed image file name takes the supplied image
      rename_i hd
      cases h
      exact ⟨_, rfl, rfl, .inr ⟨_, rfl, .inr (beq_iff_eq.1 hd)⟩⟩
    · obtain ⟨r, hr, hacc⟩ := exists_of_bind_eq_ok h
      cases hacc
      exact ⟨_, rfl, rfl, Template.substitutes_fillText hr⟩
  · obtain ⟨r, hr, hacc⟩ := exists_of_bind_eq_ok h
    cases hacc
    exact ⟨_, rfl, rfl, Template.substitutes_fillText hr⟩
  · cases h
    exact ⟨_, rfl, rfl, InputValue.Relit.refl (fun _ => .inl rfl) _⟩

/-- **Filling a node changes at most its literals**, as filling may. -/
theorem fill_relit {n m : Node} {filled unfilled : List String}
    (h : n.fill values image = .ok (m, filled, unfilled)) : Relit (fun _ _ => Template.Substitutes) n m := by
  unfold fill at h
  obtain ⟨⟨ins, f, u⟩, hins, hm⟩ := exists_of_bind_eq_ok h
  cases hm
  obtain ⟨qs, hqs, hall⟩ :=
    foldlM_append_forall₂ (fun _ _ _ h => fillInput_relit h) n.inputs ([], [], []) _ hins
  rw [List.nil_append] at hqs
  subst hqs
  exact ⟨rfl, rfl, rfl, rfl, rfl, hall⟩

end Node

namespace Graph

/-- `h` is `g` with only literal values changed, each change allowed by `P` for
the node's id and the input's name: the same nodes in the same order with the
same ids, class types, titles, modes, outputs and input names, every
connection and open slot unchanged, and the same groups, notes, metadata and
document shape. -/
structure Relit (P : String → String → Value → Value → Prop) (g h : Graph) : Prop where
  nodes : List.Forall₂ (Node.Relit P) g.nodes h.nodes
  groups : h.groups = g.groups
  notes : h.notes = g.notes
  wrapped : h.wrapped = g.wrapped
  metadata : h.metadata = g.metadata

variable {g : Graph} {P : String → String → Value → Value → Prop}

/-- A graph whose nodes are mapped one by one, each changing at most its literals. -/
theorem relit_map {f : Node → Node} (hf : ∀ n ∈ g.nodes, Node.Relit P n (f n)) :
    Relit P g { g with nodes := g.nodes.map f } where
  nodes := List.forall₂_map_right_iff.2 (List.forall₂_same.2 hf)
  groups := rfl
  notes := rfl
  wrapped := rfl
  metadata := rfl

/-- Every node of a graph has distinct input names. -/
def NamesDistinct (g : Graph) : Prop := ∀ n ∈ g.nodes, n.NamesDistinct

/-- Filling a graph's nodes fills each node in turn. -/
theorem fillNode_relit {values : Value} {image : Option Value} {acc acc' : List Node × List String × List String}
    {n : Node} (h : fillNode values image acc n = .ok acc') :
    ∃ m, acc'.1 = acc.1 ++ [m] ∧ Node.Relit (fun _ _ => Template.Substitutes) n m := by
  unfold fillNode at h
  obtain ⟨⟨m, f, u⟩, hm, hacc⟩ := exists_of_bind_eq_ok h
  cases hacc
  exact ⟨m, rfl, Node.fill_relit hm⟩

/-- Filling, from any values, changes only literals, and a text only if it
holds a placeholder or is the old fixed image file name. -/
theorem fill_relit {values : Value} {r : FillOutcome} (h : g.fill values = .ok r) :
    Relit (fun _ _ => Template.Substitutes) g r.graph := by
  unfold fill at h
  obtain ⟨image, -, h⟩ := exists_of_bind_eq_ok h
  obtain ⟨⟨nodes, f, u⟩, hnodes, hr⟩ := exists_of_bind_eq_ok h
  cases hr
  obtain ⟨ms, hms, hall⟩ :=
    foldlM_append_forall₂ (fun _ _ _ h => fillNode_relit h) g.nodes ([], [], []) _ hnodes
  rw [List.nil_append] at hms
  subst hms
  exact ⟨hall, rfl, rfl, rfl, rfl⟩

/-! ## Writing a seed -/

/-- Writing a seed is a run of literal writes into the seed inputs. -/
theorem reseed_eq (seed : Value) :
    g.reseed seed = { g with nodes := g.nodes.map fun n => n.writeLiterals (Layout.seedNames.map (·, seed)) } := by
  unfold reseed Node.writeLiterals
  simp only [List.foldl_map]
  rfl

theorem get?_seedWrites (seed : Value) (name : String) :
    Fields.get? (Layout.seedNames.map (·, seed)).reverse name = if name ∈ Layout.seedNames then some seed else none := by
  by_cases h : name ∈ Layout.seedNames
  · simp only [Layout.seedNames, List.mem_cons, List.not_mem_nil, or_false] at h
    rcases h with rfl | rfl <;> simp [Fields.get?, Layout.seedNames]
  · rw [if_neg h]
    simp only [Layout.seedNames, List.mem_cons, List.not_mem_nil, or_false, not_or] at h
    simp [Fields.get?, Layout.seedNames, Ne.symm h.1, Ne.symm h.2]

theorem relit_reseed (hnd : g.NamesDistinct) (seed : Value) :
    Relit (fun _ name x y => y = if name ∈ Layout.seedNames then seed else x) g (g.reseed seed) := by
  rw [reseed_eq]
  refine relit_map fun n hn => ?_
  rw [Node.writeLiterals_eq _ (hnd n hn)]
  refine Node.relit_map fun p _ => ⟨rfl, InputValue.relit_overwrite _ (fun x => ?_) p.2⟩
  rw [get?_seedWrites]
  split <;> rfl

/-! ## Applying overrides -/

/-- The writes an override map lists for the node of one id, in order; a value
that is no object lists none. -/
def overridesOf (o : Value) (id : String) : Fields :=
  ((o.fields?).getD []).flatMap fun e => if e.1 = id then (e.2.fields?).getD [] else []

/-- The value an override map lists last for one input of the node of one id. -/
def overrideFor (o : Value) (id name : String) : Option Value := Fields.get? (overridesOf o id).reverse name

/-- One entry of an override map applied: an object of values is written into
the node of the entry's id, any other value is passed over. -/
def overrideEntry (acc : Graph) (e : String × Value) : Graph :=
  match e.2 with
  | .obj values => acc.modify e.1 fun n => n.writeLiterals values
  | _ => acc

/-- An override map object is applied entry by entry; the empty one, which
counts as false, changes nothing as its empty run of entries does. -/
theorem override_obj (o : Fields) : g.override (.obj o) = .ok (o.foldl overrideEntry g) := by
  cases o with
  | nil => rfl
  | cons e o => rfl

/-- One entry, applied after earlier writes, goes after them in the nodes of
its id and leaves the other nodes. -/
theorem overrideEntry_written (pre : String → Fields) (e : String × Value) :
    overrideEntry { g with nodes := g.nodes.map fun n => n.writeLiterals (pre n.id) } e =
      { g with nodes := g.nodes.map fun n =>
          n.writeLiterals (pre n.id ++ if e.1 = n.id then (e.2.fields?).getD [] else []) } := by
  unfold overrideEntry
  split
  · rename_i values hv
    simp only [modify, List.map_map]
    congr 1
    refine List.map_congr_left fun n _ => ?_
    by_cases hid : e.1 = n.id
    · simp [hid, hv, Value.fields?, Node.id_writeLiterals, Node.writeLiterals_append]
    · simp [hid, Ne.symm hid, Node.id_writeLiterals]
  · rename_i hv
    have hnone : (e.2.fields?).getD [] = [] := by
      cases he : e.2 <;> simp_all [Value.fields?]
    simp [hnone]

/-- The entries of an override map, applied after earlier writes: each node
takes the writes listed for its id, in turn, after what it had. -/
theorem foldl_overrideEntry (o : Fields) : ∀ pre : String → Fields,
    o.foldl overrideEntry { g with nodes := g.nodes.map fun n => n.writeLiterals (pre n.id) } =
      { g with nodes := g.nodes.map fun n => n.writeLiterals (pre n.id ++ overridesOf (.obj o) n.id) } := by
  induction o with
  | nil => intro pre; simp [overridesOf, Value.fields?]
  | cons e o ih =>
    intro pre
    have ih' := ih fun id => pre id ++ if e.1 = id then (e.2.fields?).getD [] else []
    rw [List.foldl_cons, overrideEntry_written, ih']
    simp [overridesOf, Value.fields?, List.append_assoc]

/-- An override map object is always applied, writing into each node the
values the map lists for its id, in order. -/
theorem override_eq (o : Fields) :
    g.override (.obj o) = .ok { g with nodes := g.nodes.map fun n => n.writeLiterals (overridesOf (.obj o) n.id) } := by
  have hfold := @foldl_overrideEntry g o fun _ => []
  simp only [List.nil_append, Node.writeLiterals_nil, List.map_id'] at hfold
  rw [override_obj]
  exact congrArg Except.ok hfold

/-- **Overrides, as a map.** Whatever applying an override value gives writes,
into each node, the values the map lists for its id, in order: a value that is
no object either changes nothing or is refused. -/
theorem eq_of_override {o : Value} {h : Graph} (hov : g.override o = .ok h) :
    h = { g with nodes := g.nodes.map fun n => n.writeLiterals (overridesOf o n.id) } := by
  by_cases hobj : ∃ fs, o = .obj fs
  · obtain ⟨fs, rfl⟩ := hobj
    rw [override_eq] at hov
    cases hov
    rfl
  · have hnone : o.fields? = none := by
      cases o <;> simp_all [Value.fields?]
    -- a value that is no object is applied only when it counts as false, unchanged
    have hg : h = g := by
      unfold override at hov
      split at hov
      · cases hov
        rfl
      · split at hov
        · exact absurd ⟨_, rfl⟩ hobj
        · cases hov
    simp [hg, overridesOf, hnone]

theorem relit_override (hnd : g.NamesDistinct) {o : Value} {h : Graph} (hov : g.override o = .ok h) :
    Relit (fun id name x y => y = (overrideFor o id name).getD x) g h := by
  rw [eq_of_override hov]
  refine relit_map fun n hn => ?_
  rw [Node.writeLiterals_eq _ (hnd n hn)]
  refine Node.relit_map fun p _ => ⟨rfl, ?_⟩
  exact @InputValue.relit_overwrite (fun x y => y = (overrideFor o n.id p.1).getD x) _ (fun x => rfl) p.2

/-- **Filling, seeding and overriding change only literals.** For a graph whose
nodes have distinct input names, each of the three passes keeps the nodes, their
order, ids, class types, titles, modes and outputs, every input name in its
place with every connection and open slot, and the groups, notes, metadata and
document shape. Filling, from any values, changes a text only if it holds a
placeholder or is the old fixed image file name. Writing a seed sets exactly the
literal `seed` and `noise_seed` inputs to it. Applying overrides sets exactly
the literal inputs the map lists for a node's id, each to the value it lists
last. Applying an object of overrides always succeeds, and so does filling from
an object of values when every value can be written out (holds no integer of
more than `Decimal.maxIntegerDigits` digits). -/
theorem literal_passes_keep_shape (g : Graph) (hnd : g.NamesDistinct) :
    (∀ values r, g.fill values = .ok r → Relit (fun _ _ => Template.Substitutes) g r.graph) ∧
      (∀ seed, Relit (fun _ name x y => y = if name ∈ Layout.seedNames then seed else x) g (g.reseed seed)) ∧
      (∀ o h, g.override o = .ok h → Relit (fun id name x y => y = (overrideFor o id name).getD x) g h) ∧
      (∀ vs : Fields, (∀ kv ∈ vs, Issue.writable kv.2 = true) → ∃ r, g.fill (.obj vs) = .ok r) ∧
      ∀ o : Fields, ∃ h, g.override (.obj o) = .ok h :=
  ⟨fun _ _ => fill_relit, relit_reseed hnd, fun _ _ => relit_override hnd,
    fun vs hw => ⟨_, fill_obj g vs hw⟩, fun o => ⟨_, override_eq o⟩⟩

/-- The prompt pair's inputs have distinct names, so filling its subject
succeeds and an override of its text is applied and changes only that
literal. -/
theorem literal_passes_keep_shape_prompt_pair :
    promptPair.NamesDistinct ∧ (∀ kv ∈ [("subject", Value.str "a fox")], Issue.writable kv.2 = true) ∧
      (∃ r, promptPair.fill (.obj [("subject", .str "a fox")]) = .ok r) ∧
      ∃ h, promptPair.override (.obj [("6", .obj [("text", .str "a cat")])]) = .ok h ∧
        Relit (fun id name x y => y = (overrideFor (.obj [("6", .obj [("text", .str "a cat")])]) id name).getD x)
          promptPair h := by
  have hnd : promptPair.NamesDistinct := by
    intro n hn
    simp only [promptPair, List.mem_singleton] at hn
    subst hn
    simp [Node.NamesDistinct]
  have hw : ∀ kv ∈ [("subject", Value.str "a fox")], Issue.writable kv.2 = true := by decide
  have hshape := literal_passes_keep_shape promptPair hnd
  obtain ⟨h, hov⟩ := hshape.2.2.2.2 [("6", .obj [("text", .str "a cat")])]
  exact ⟨hnd, hw, hshape.2.2.2.1 _ hw, h, hov, hshape.2.2.1 _ h hov⟩

end Graph

end NodeFlow
