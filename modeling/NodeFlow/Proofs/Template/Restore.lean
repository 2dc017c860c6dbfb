import NodeFlow.Proofs.Mapping.Session
import NodeFlow.Proofs.Template.Text
import NodeFlow.Proofs.Graph.Document
import NodeFlow.Proofs.Chain.Shape
/-!
# Filling a template back to its graph

The template of a mapping session holds, at each selected input, its field's
placeholder. Filled with the values it was made from (`restoringValues`: each
selected field's placeholder with the literal its input held), it gives the
graph back, and the placeholders it fills are exactly those of the selected
fields (`Restoring.fill_template`, and for the states a mapping session
reaches, `fill_template_restoringValues`).

Two things could spoil this, and are excluded: a text literal that is not
selected but holds a placeholder the values supply, which filling would change;
and, when the image field is selected, a literal holding the file name of
templates older than the image placeholder, which filling replaces by the
image. The proof goes input by input: a selected input takes its literal back
as a whole placeholder with a value, any other is kept (`fillText_unsupplied`),
and a fold that gives each item back gives the list back (`foldlM_restore`).
-/

namespace NodeFlow

open Json

namespace Template

/-- The placeholder written for a field key given as a value: a text key's
placeholder; any other key stands for itself. -/
def keyPlaceholder : Value → String
  | .str k => placeholderForKey k
  | v => v.display

theorem placeholderLiteral_eq (key : Value) : placeholderLiteral key = slotText (keyPlaceholder key) := by
  cases key <;> rfl

/-- A written placeholder is never the legacy image file name, which starts
with a letter. -/
theorem slotText_ne_defaultImageName (name : String) : slotText name ≠ defaultImageName := by
  intro h
  have hhead := congrArg (fun s : String => s.toList.head?) h
  have hdefault : defaultImageName.toList.head? = some 'u' := by decide
  simp only [slotText_toList, hdefault, List.head?_cons, Option.some.injEq] at hhead
  exact absurd hhead (by decide)

end Template

namespace Category

/-- The fields of a category have distinct placeholders. -/
theorem placeholders_nodup (c : Category) (present : List String) :
    ((c.requiredKeys ++ c.optionalKeys present).map Template.placeholderForKey).Nodup := by
  unfold optionalKeys
  cases c <;> dsimp only <;> split <;> split <;> decide

/-- **The placeholder of each field of a category is a name**; none is
`image`, and only the image field's is `image_filename`. -/
theorem placeholder_of_key (c : Category) (present : List String) :
    ∀ k ∈ c.requiredKeys ++ c.optionalKeys present, Template.isName (Template.placeholderForKey k) = true ∧
      Template.placeholderForKey k ≠ "image" ∧ (Template.placeholderForKey k = "image_filename" → k = "image") := by
  unfold optionalKeys
  cases c <;> dsimp only <;> split <;> split <;> decide

end Category

namespace Graph

/-- The literal node `t.1` holds in its input `t.2`. -/
def heldLiteral? (g : Graph) (t : String × String) : Option Value := (g.get? t.1).bind (·.literal? t.2)

/-- The values that fill the template of the selections `sel` back to `g`: each
selected field's placeholder with the literal its input holds in `g`. -/
def restoringValues (g : Graph) (sel : Bindings) : Fields :=
  sel.filterMap fun b => (g.heldLiteral? b.2).map (Template.keyPlaceholder b.1, ·)

variable {g : Graph} {sel : Bindings}

theorem heldLiteral?_of_holds (hk : g.Keyed) {t : String × String} {v : Value} (h : g.Holds t (.literal v)) :
    g.heldLiteral? t = some v := by
  obtain ⟨n, hn, hid, hmem⟩ := h
  have hfind : n.inputs.find? (·.1 == t.2) = some (t.2, .literal v) := by
    obtain ⟨q, hq⟩ : ∃ q, n.inputs.find? (·.1 == t.2) = some q :=
      Option.isSome_iff_exists.1 (List.find?_isSome.2 ⟨_, hmem, by simp⟩)
    have hq1 : q.1 = t.2 := by simpa using List.find?_some hq
    rw [hq, hk.eq_of_name hn (List.mem_of_find?_eq_some hq) hmem hq1]
  unfold heldLiteral?
  rw [← hid, get?_of_nodup hk.ids_nodup hn]
  simp [Node.literal?, Inputs.get?, hfind]

/-- The restoring values are named by the selected fields' placeholders, when
every selected input holds a literal. -/
theorem restoringValues_names (hk : g.Keyed) (hlit : ∀ b ∈ sel, ∃ v, g.Holds b.2 (.literal v)) :
    (restoringValues g sel).map (·.1) = sel.map fun b => Template.keyPlaceholder b.1 := by
  unfold restoringValues
  rw [List.map_filterMap, List.filterMap_eq_map_iff_forall_eq_some]
  intro b hb
  obtain ⟨v, hv⟩ := hlit b hb
  rw [heldLiteral?_of_holds hk hv]
  rfl

/-- What filling the template of the selections `sel` needs to give `g` back:
a keyed graph; selections whose targets are distinct inputs of the graph that
hold literals, with distinct placeholders that read as names; and no other text
literal that filling with the restoring values would change: none holds a
placeholder they supply, nor, when they supply the image, the legacy image
file name. -/
structure Restoring (g : Graph) (sel : Bindings) : Prop where
  keyed : g.Keyed
  targets_nodup : (sel.map (·.2)).Nodup
  literal : ∀ b ∈ sel, ∃ v, g.Holds b.2 (.literal v)
  names_nodup : (sel.map fun b => Template.keyPlaceholder b.1).Nodup
  isName : ∀ b ∈ sel, Template.isName (Template.keyPlaceholder b.1) = true
  other : ∀ n ∈ g.nodes, ∀ name text, (name, .literal (.str text)) ∈ n.inputs → (n.id, name) ∉ sel.map (·.2) →
    (∀ x ∈ Template.placeholderNames text, ¬ Template.Supplies ((restoringValues g sel).map (·.1)) x) ∧
    (Template.Supplies ((restoringValues g sel).map (·.1)) "image_filename" → text ≠ Template.defaultImageName)

/-- A fold that turns each mapped item back into the item, gathering names on
the way, gives the list back. -/
theorem foldlM_restore {α β : Type} {h : α → β}
    {F : List α × List String × List String → β → Outcome (List α × List String × List String)}
    {P : α → String → Prop} :
    ∀ (l : List α) (acc : List α × List String × List String),
      (∀ acc, ∀ x ∈ l, ∃ a b, F acc (h x) = .ok (acc.1 ++ [x], acc.2.1 ++ a, acc.2.2 ++ b) ∧ ∀ y, y ∈ a ↔ P x y) →
      ∃ a b, (l.map h).foldlM F acc = .ok (acc.1 ++ l, acc.2.1 ++ a, acc.2.2 ++ b) ∧ ∀ y, y ∈ a ↔ ∃ x ∈ l, P x y
  | [], acc, _ => ⟨[], [], by simp; rfl, by simp⟩
  | x :: l, acc, hF => by
    obtain ⟨a, b, hx, ha⟩ := hF acc x List.mem_cons_self
    obtain ⟨a', b', hl, ha'⟩ := foldlM_restore l _ fun acc y hy => hF acc y (List.mem_cons_of_mem _ hy)
    refine ⟨a ++ a', b ++ b', ?_, ?_⟩
    · rw [List.map_cons, List.foldlM_cons, hx, MappingState.ok_bind, hl]
      simp
    · intro y
      rw [List.mem_append, ha, ha']
      simp only [List.mem_cons, exists_eq_or_imp]

variable {image : Option Value}

/-- Each selected placeholder is looked up as the literal its input held. -/
theorem Restoring.lookup (hr : Restoring g sel) {b : Value × String × String} (hb : b ∈ sel) {v : Value} (hv : g.heldLiteral? b.2 = some v) :
    Template.lookup (.obj (restoringValues g sel)) (Template.keyPlaceholder b.1) = .ok (some v) := by
  have hmem : (Template.keyPlaceholder b.1, v) ∈ restoringValues g sel :=
    List.mem_filterMap.2 ⟨b, hb, by rw [hv]; rfl⟩
  obtain ⟨v', hv'⟩ := Json.Fields.exists_get?_of_mem hmem
  have hnodup : ((restoringValues g sel).map (·.1)).Nodup :=
    (restoringValues_names hr.keyed hr.literal) ▸ hr.names_nodup
  have heq := List.inj_on_of_nodup_map hnodup (Json.Fields.mem_of_get? hv') hmem rfl
  rw [Template.lookup_of_get? hv', (Prod.mk.inj heq).2]

/-- A text literal is filled as its text, unless an image is supplied and it
is the legacy image file name. -/
theorem fillInput_str {values : Value} {acc : Inputs × List String × List String} {name text : String}
    {r : Template.TextFill} (hdefault : image.isSome = true → text ≠ Template.defaultImageName)
    (hr : Template.fillText values text = .ok r) :
    Node.fillInput values image acc (name, .literal (.str text)) =
      .ok (acc.1 ++ [(name, .literal r.value)], acc.2.1 ++ r.filled, acc.2.2 ++ r.unfilled) := by
  unfold Node.fillInput
  cases image with
  | some img =>
    dsimp only
    rw [if_neg (by simpa using hdefault rfl), hr, MappingState.ok_bind]
    rfl
  | none =>
    dsimp only
    rw [hr, MappingState.ok_bind]
    rfl

/-- Any input but a text literal is kept. -/
theorem fillInput_of_not_str {values : Value} {acc : Inputs × List String × List String} {name : String}
    {v : InputValue} (hv : ∀ text, v ≠ .literal (.str text)) :
    Node.fillInput values image acc (name, v) = .ok (acc.1 ++ [(name, v)], acc.2) := by
  unfold Node.fillInput
  dsimp only
  split
  · exact absurd rfl (hv _)
  · exact absurd rfl (hv _)
  · rfl

/-- **Filling gives each input of the template back as the graph had it**: a
selected one takes its literal back, and reports its field's placeholder. -/
theorem Restoring.fillInput_templateInput (hr : Restoring g sel) {n : Node} (hn : n ∈ g.nodes) {p : String × InputValue} (hp : p ∈ n.inputs)
    (himage : Template.lookup (.obj (restoringValues g sel)) "image_filename" = .ok image)
    (acc : Inputs × List String × List String) :
    ∃ a o, Node.fillInput (.obj (restoringValues g sel)) image acc (templateInput sel n.id p) =
        .ok (acc.1 ++ [p], acc.2.1 ++ a, acc.2.2 ++ o) ∧
      ∀ y, y ∈ a ↔ ∃ b ∈ sel, b.2 = (n.id, p.1) ∧ y = Template.keyPlaceholder b.1 := by
  obtain ⟨name, val⟩ := p
  unfold templateInput
  cases hfind : sel.find? (·.2 == (n.id, name)) with
  | some b =>
    -- a selected input: its placeholder is filled with the literal it held
    have hb := List.mem_of_find?_eq_some hfind
    have ht : b.2 = (n.id, name) := by simpa using List.find?_some hfind
    obtain ⟨v, hv⟩ := hr.literal b hb
    have hval : val = .literal v := by
      obtain ⟨m, hm, hid, hmem⟩ := hv
      have hmn := hr.keyed.eq_of_id hm hn (by rw [hid, ht])
      subst hmn
      have := hr.keyed.eq_of_name hm hp hmem (by rw [ht])
      exact (Prod.mk.inj this).2.symm ▸ rfl
    have hfill := Template.fillText_slotText (hr.isName b hb) (hr.lookup hb (heldLiteral?_of_holds hr.keyed hv))
    refine ⟨[Template.keyPlaceholder b.1], [], ?_, ?_⟩
    · dsimp only
      rw [fieldLiteral, Template.placeholderLiteral_eq,
        fillInput_str (fun _ => Template.slotText_ne_defaultImageName _) hfill, hval]
    · intro y
      simp only [List.mem_singleton]
      constructor
      · rintro rfl
        exact ⟨b, hb, ht, rfl⟩
      · rintro ⟨b', hb', ht', rfl⟩
        have : b' = b := List.inj_on_of_nodup_map hr.targets_nodup hb' hb (ht'.trans ht.symm)
        rw [this]
  | none =>
    -- any other input is kept: its text holds no placeholder the values supply
    have hsel : (n.id, name) ∉ sel.map (·.2) := by
      intro h
      obtain ⟨b, hb, ht⟩ := List.mem_map.1 h
      have := List.find?_eq_none.1 hfind b hb
      simp [ht] at this
    have hnone : ∀ y, y ∈ ([] : List String) ↔ ∃ b ∈ sel, b.2 = (n.id, name) ∧ y = Template.keyPlaceholder b.1 := by
      intro y
      simp only [List.not_mem_nil, false_iff, not_exists, not_and]
      exact fun b hb ht => absurd (List.mem_map.2 ⟨b, hb, ht⟩) hsel
    dsimp only
    by_cases hstr : ∃ text, val = .literal (.str text)
    · obtain ⟨text, rfl⟩ := hstr
      obtain ⟨hnames, hdefault⟩ := hr.other n hn name text hp hsel
      have hunsup : Template.fillText (.obj (restoringValues g sel)) text =
          .ok ⟨.str text, [], Template.placeholderNames text⟩ :=
        Template.fillText_unsupplied fun x hx => Template.lookup_eq_none (hnames x hx)
      -- a supplied image comes from a value, so the legacy name is not the text
      have himg : image.isSome = true → text ≠ Template.defaultImageName := fun hsome => by
        obtain ⟨img, rfl⟩ := Option.isSome_iff_exists.1 hsome
        exact hdefault (Template.supplies_of_lookup himage)
      exact ⟨[], Template.placeholderNames text, fillInput_str himg hunsup, hnone⟩
    · refine ⟨[], [], ?_, hnone⟩
      rw [fillInput_of_not_str fun text h => hstr ⟨text, h⟩, List.append_nil, List.append_nil]

/-- **Filling gives each node of the template back as the graph had it**,
with the placeholders of the fields selecting its inputs. -/
theorem Restoring.fillNode_template (hr : Restoring g sel) {n : Node} (hn : n ∈ g.nodes)
    (himage : Template.lookup (.obj (restoringValues g sel)) "image_filename" = .ok image)
    (acc : List Node × List String × List String) :
    ∃ a o, Graph.fillNode (.obj (restoringValues g sel)) image acc { n with inputs := n.inputs.map (templateInput sel n.id) } =
        .ok (acc.1 ++ [n], acc.2.1 ++ a, acc.2.2 ++ o) ∧
      ∀ y, y ∈ a ↔ ∃ p ∈ n.inputs, ∃ b ∈ sel, b.2 = (n.id, p.1) ∧ y = Template.keyPlaceholder b.1 := by
  obtain ⟨a, o, hfold, ha⟩ := foldlM_restore (F := Node.fillInput (.obj (restoringValues g sel)) image)
    n.inputs ([], [], []) fun acc p hp => hr.fillInput_templateInput hn hp himage acc
  refine ⟨a, o, ?_, ha⟩
  unfold Graph.fillNode Node.fill
  dsimp only
  rw [hfold, MappingState.ok_bind]
  simp
  rfl

/-- **Filling the template of the selections with the restoring values gives
the graph back**, and fills exactly the selected fields' placeholders. -/
theorem Restoring.fill_template (hr : Restoring g sel) :
    ∃ out, (g.mapInputs (templateInput sel)).fill (.obj (restoringValues g sel)) = .ok out ∧ out.graph = g ∧
      ∀ y, y ∈ out.filled ↔ ∃ b ∈ sel, y = Template.keyPlaceholder b.1 := by
  obtain ⟨image, himage⟩ := Template.lookup_obj_ok (restoringValues g sel) "image_filename"
  obtain ⟨a, o, hfold, ha⟩ := foldlM_restore (F := Graph.fillNode (.obj (restoringValues g sel)) image)
    g.nodes ([], [], []) fun acc n hn => hr.fillNode_template hn himage acc
  refine ⟨{ graph := g, filled := Template.sortedNames a, unfilled := Template.sortedNames o,
             warnings := (Template.sortedNames o).map fun name =>
               "No value supplied for placeholder " ++ Template.slotText name }, ?_, rfl, ?_⟩
  · unfold Graph.fill mapInputs
    rw [himage, MappingState.ok_bind]
    dsimp only
    rw [hfold, MappingState.ok_bind]
    rfl
  · -- every selected field's input is an input of some node
    intro y
    dsimp only
    rw [Template.mem_sortedNames, ha]
    constructor
    · rintro ⟨n, -, p, -, b, hb, -, rfl⟩
      exact ⟨b, hb, rfl⟩
    · rintro ⟨b, hb, rfl⟩
      obtain ⟨v, n, hn, hid, hmem⟩ := hr.literal b hb
      exact ⟨n, hn, _, hmem, b, hb, Prod.ext hid.symm rfl, rfl⟩

/-! ## The template of a mapping session -/

variable {c : Category} {schema : Schema} {s : MappingState}

/-- Each selected field's placeholder is its text key's. -/
theorem keyPlaceholder_of_mem_selections (hs : MappingState.Reachable g c schema s) {b : Value × String × String}
    (hb : b ∈ s.selections) :
    ∃ k ∈ c.requiredKeys ++ c.optionalKeys g.classTypes, b.1 = .str k ∧
      Template.keyPlaceholder b.1 = Template.placeholderForKey k := by
  obtain ⟨k, hk, hkey⟩ := hs.key_of_mem_selections hb
  exact ⟨k, hk, hkey, by rw [hkey]; rfl⟩

/-- Values restoring the template of a session supply the image only when the
image field is selected: no other field's placeholder is the image's, nor the
key it lands on. -/
theorem image_selected_of_supplies (hs : MappingState.Reachable g c schema s) (hk : g.Keyed)
    (hlit : ∀ b ∈ s.selections, ∃ v, g.Holds b.2 (.literal v))
    (h : Template.Supplies ((restoringValues g s.selections).map (·.1)) "image_filename") :
    ∃ t, (.str "image", t) ∈ s.selections := by
  rw [restoringValues_names hk hlit] at h
  have hkey : Template.placeholderKeys.lookup "image_filename" = some "image" := by decide
  rcases h with h | ⟨key, hkey', h⟩
  · -- the image placeholder is the image field's
    obtain ⟨⟨k₀, t⟩, hb, hname⟩ := List.mem_map.1 h
    obtain ⟨k, hkc, rfl, hk'⟩ := keyPlaceholder_of_mem_selections hs hb
    have himage := (Category.placeholder_of_key c _ k hkc).2.2 (hk'.symm.trans hname)
    exact ⟨t, himage ▸ hb⟩
  · -- and `image` is no field's placeholder
    rw [hkey, Option.some.injEq] at hkey'
    subst hkey'
    obtain ⟨b, hb, hname⟩ := List.mem_map.1 h
    obtain ⟨k, hkc, -, hk'⟩ := keyPlaceholder_of_mem_selections hs hb
    exact absurd (hk'.symm.trans hname) (Category.placeholder_of_key c _ k hkc).2.1

/-- The selections of a reachable state meet what filling needs to give the
graph back, when their targets are distinct inputs holding literals and no
other text literal would be changed. -/
theorem restoring_of_reachable (hs : MappingState.Reachable g c schema s) (hk : g.Keyed)
    (htargets : (s.selections.map (·.2)).Nodup)
    (hlit : ∀ b ∈ s.selections, ∃ v, g.Holds b.2 (.literal v))
    (hother : ∀ n ∈ g.nodes, ∀ name text, (name, .literal (.str text)) ∈ n.inputs →
      (n.id, name) ∉ s.selections.map (·.2) →
      (∀ x ∈ Template.placeholderNames text, ¬ Template.Supplies ((restoringValues g s.selections).map (·.1)) x) ∧
      ((∃ t, (.str "image", t) ∈ s.selections) → text ≠ Template.defaultImageName)) :
    Restoring g s.selections where
  keyed := hk
  targets_nodup := htargets
  literal := hlit
  names_nodup := by
    -- distinct keys of the category have distinct placeholders
    have hmap : (s.selections.map fun b => Template.keyPlaceholder b.1) =
        (s.selections.map (·.1)).map Template.keyPlaceholder := by
      rw [List.map_map]
      rfl
    rw [hmap]
    refine hs.selections_keys_nodup.map_on ?_
    intro x hx y hy hxy
    obtain ⟨b, hb, rfl⟩ := List.mem_map.1 hx
    obtain ⟨b', hb', rfl⟩ := List.mem_map.1 hy
    obtain ⟨k, hkc, hkey, hk⟩ := keyPlaceholder_of_mem_selections hs hb
    obtain ⟨k', hkc', hkey', hk'⟩ := keyPlaceholder_of_mem_selections hs hb'
    rw [hk, hk'] at hxy
    rw [hkey, hkey', List.inj_on_of_nodup_map (Category.placeholders_nodup c _) hkc hkc' hxy]
  isName := by
    intro b hb
    obtain ⟨k, hkc, -, hk⟩ := keyPlaceholder_of_mem_selections hs hb
    rw [hk]
    exact (Category.placeholder_of_key c _ k hkc).1
  other := by
    intro n hn name text hmem hsel
    obtain ⟨hnames, hdefault⟩ := hother n hn name text hmem hsel
    exact ⟨hnames, fun h => hdefault (image_selected_of_supplies hs hk hlit h)⟩

/-- **Filling a template with the values it was made from gives the graph
back.** Take a keyed graph and a state a mapping session reaches from its
analysis, whose selected inputs are distinct and hold literals, and in which
no other text literal holds a placeholder the values supply, nor, when the
image field is selected, the legacy image file name. Filling the state's
template with each selected field's placeholder and the literal its input
held gives the graph, and the placeholders filled are exactly those of the
selected fields. -/
theorem fill_template_restoringValues (hs : MappingState.Reachable g c schema s) (hk : g.Keyed)
    (htargets : (s.selections.map (·.2)).Nodup)
    (hlit : ∀ b ∈ s.selections, ∃ v, g.Holds b.2 (.literal v))
    (hother : ∀ n ∈ g.nodes, ∀ name text, (name, .literal (.str text)) ∈ n.inputs →
      (n.id, name) ∉ s.selections.map (·.2) →
      (∀ x ∈ Template.placeholderNames text, ¬ Template.Supplies ((restoringValues g s.selections).map (·.1)) x) ∧
      ((∃ t, (.str "image", t) ∈ s.selections) → text ≠ Template.defaultImageName)) :
    ∃ tpl out, g.template s = .ok tpl ∧ tpl.fill (.obj (restoringValues g s.selections)) = .ok out ∧
      out.graph = g ∧ ∀ x, x ∈ out.filled ↔ ∃ k t, (.str k, t) ∈ s.selections ∧ x = Template.placeholderForKey k := by
  have hr := restoring_of_reachable hs hk htargets hlit hother
  have hhas : ∀ b ∈ s.selections, g.HasInput b.2 := by
    intro b hb
    obtain ⟨v, n, hn, hid, hmem⟩ := hlit b hb
    exact ⟨n, hn, hid, has_of_mem_inputs hmem⟩
  obtain ⟨out, hfill, hgraph, hfilled⟩ := hr.fill_template
  refine ⟨_, out, hs.template_eq, ?_, hgraph, ?_⟩
  · rw [foldl_write_eq hk.ids_nodup htargets hhas]
    exact hfill
  · intro x
    rw [hfilled]
    constructor
    · rintro ⟨⟨k₀, t⟩, hb, rfl⟩
      obtain ⟨k, -, rfl, hk'⟩ := keyPlaceholder_of_mem_selections hs hb
      exact ⟨k, t, hb, hk'⟩
    · rintro ⟨k, t, hb, rfl⟩
      exact ⟨_, hb, rfl⟩

/-- A sampler graph with a latent size, two prompts, a step count and a save
prefix holding a placeholder no field supplies: filling the template of its
analysis with the values it was made from gives it back, the numbers as
numbers, and fills the five selected placeholders. -/
theorem fill_template_sampler_graph : ∃ g : Graph, g =
        { nodes :=
            [{ id := "5", classType := "EmptyLatentImage",
               inputs := [("width", .literal (.int 512)), ("height", .literal (.int 768))] },
             { id := "6", classType := "CLIPTextEncode", inputs := [("text", .literal (.str "a cat"))] },
             { id := "7", classType := "CLIPTextEncode", inputs := [("text", .literal (.str "blurry"))] },
             { id := "3", classType := "KSampler",
               inputs := [("positive", .connection "6" 0), ("negative", .connection "7" 0),
                 ("latent_image", .connection "5" 0), ("steps", .literal (.int 20)), ("seed", .literal (.int 5))] },
             { id := "9", classType := "SaveImage", inputs := [("filename_prefix", .literal (.str "{{run_name}}"))] }],
          wrapped := false } ∧
      MappingState.Reachable g .textToImage Schema.empty (MappingState.analyze g .textToImage Schema.empty) ∧
      g.Keyed ∧
      ((MappingState.analyze g .textToImage Schema.empty).selections.map (·.2)).Nodup ∧
      (∀ b ∈ (MappingState.analyze g .textToImage Schema.empty).selections, ∃ v, g.Holds b.2 (.literal v)) ∧
      (∀ n ∈ g.nodes, ∀ name text, (name, .literal (.str text)) ∈ n.inputs →
        (n.id, name) ∉ (MappingState.analyze g .textToImage Schema.empty).selections.map (·.2) →
        (∀ x ∈ Template.placeholderNames text,
          ¬ Template.Supplies ((restoringValues g (MappingState.analyze g .textToImage Schema.empty).selections).map (·.1)) x) ∧
        ((∃ t, (.str "image", t) ∈ (MappingState.analyze g .textToImage Schema.empty).selections) →
          text ≠ Template.defaultImageName)) ∧
      ∃ tpl out, g.template (MappingState.analyze g .textToImage Schema.empty) = .ok tpl ∧
        tpl.fill (.obj (restoringValues g (MappingState.analyze g .textToImage Schema.empty).selections)) = .ok out ∧
        out.graph = g ∧ ∀ x, x ∈ out.filled ↔ ∃ k t,
          (.str k, t) ∈ (MappingState.analyze g .textToImage Schema.empty).selections ∧ x = Template.placeholderForKey k := by
  refine ⟨_, rfl, .analyze, ?hk, ?ht, ?hl, ?ho, fill_template_restoringValues .analyze ?hk ?ht ?hl ?ho⟩
  · exact ⟨by decide, by decide⟩
  · unfold MappingState.analyze
    rw [Category.optionalKeys_classTypes]
    change ([("6", "text"), ("7", "text"), ("5", "width"), ("5", "height"), ("3", "steps")] : List (String × String)).Nodup
    decide
  · unfold MappingState.analyze
    rw [Category.optionalKeys_classTypes]
    intro b hb
    change b ∈ [(Value.str "positive_text", "6", "text"), (.str "negative_text", "7", "text"),
      (.str "width", "5", "width"), (.str "height", "5", "height"), (.str "steps", "3", "steps")] at hb
    simp only [List.mem_cons, List.not_mem_nil, or_false] at hb
    rcases hb with rfl | rfl | rfl | rfl | rfl
    · exact ⟨.str "a cat", by simp [Holds]⟩
    · exact ⟨.str "blurry", by simp [Holds]⟩
    · exact ⟨.int 512, by simp [Holds]⟩
    · exact ⟨.int 768, by simp [Holds]⟩
    · exact ⟨.int 20, by simp [Holds]⟩
  · -- the one text literal no field selects is the save prefix, whose placeholder no value supplies
    intro n hn name text hmem hnot
    unfold MappingState.analyze at hnot ⊢
    rw [Category.optionalKeys_classTypes] at hnot ⊢
    change (n.id, name) ∉ [("6", "text"), ("7", "text"), ("5", "width"), ("5", "height"), ("3", "steps")] at hnot
    change (∀ x ∈ Template.placeholderNames text,
        ¬ Template.Supplies ["positive_prompt", "negative_prompt", "width", "height", "steps"] x) ∧
      ((∃ t, (Value.str "image", t) ∈ [(Value.str "positive_text", "6", "text"), (.str "negative_text", "7", "text"),
        (.str "width", "5", "width"), (.str "height", "5", "height"), (.str "steps", "3", "steps")]) →
        text ≠ Template.defaultImageName)
    simp only [List.mem_cons, List.not_mem_nil, or_false] at hn
    rcases hn with rfl | rfl | rfl | rfl | rfl <;> simp at hmem
    · simp [hmem] at hnot
    · simp [hmem] at hnot
    · obtain ⟨rfl, rfl⟩ := hmem
      have hnames : Template.placeholderNames "{{run_name}}" = ["run_name"] := by decide
      have hkey : Template.placeholderKeys.lookup "run_name" = none := by decide
      refine ⟨?_, by simp⟩
      rw [hnames]
      simp [Template.Supplies, hkey]

end Graph

end NodeFlow

