import Mathlib.Data.List.Nodup
import NodeFlow.Proofs.Mapping.Bindings
import NodeFlow.Proofs.Graph.Links
import NodeFlow.Graph.Check
/-!
# The template an analysis makes

Placing a selected field writes the literal `{{placeholder}}` into its input
when the node is found and has the input (`Graph.place_ofBinding`), so a
template is a fold of plain writes over the selections (`template_eq`).

A write leaves every other input as it was, and a later write of the same field
to the same input writes the same literal (`Graph.holds_write`). So the input a
required field selects still holds its placeholder at the end, unless a field
of another key selects the same input and overwrites it: an encoder that no
conditioning edge classifies and whose title names no polarity is a candidate
for both prompts, so the negative prompt takes the positive one's input
(`template_prompt_overwritten`). When no other field selects the input of a
required field, the template of a fully mapped analysis passes the template
check (`templateErrors_template_analyze`).
-/

namespace NodeFlow

open Json

/-! ## Placeholders in a written literal -/

namespace Template

/-- Whether a text reads as a placeholder name: not empty, and of name
characters only. -/
def isName (name : String) : Bool := !name.isEmpty && name.toList.all isNameChar

theorem slotText_toList (name : String) :
    (slotText name).toList = '{' :: '{' :: (name.toList ++ ['}', '}']) := by
  simp [slotText, String.toList_append]

theorem slotAt_slotText {name : String} (h : isName name = true) :
    slotAt ('{' :: '{' :: (name.toList ++ ['}', '}'])) = some (name, []) := by
  have hne : name.toList ≠ [] := by
    intro hnil
    simp [isName, String.toList_eq_nil_iff.1 hnil] at h
  have hall : ∀ c ∈ name.toList, isNameChar c = true := by
    simpa [isName] using (Bool.and_eq_true_iff.1 h).2
  -- the name is read up to the closing braces, which are no name characters
  have htake : (name.toList ++ ['}', '}']).takeWhile isNameChar = name.toList := by
    rw [List.takeWhile_append_of_pos hall]
    simp [isNameChar]
  have hdrop : (name.toList ++ ['}', '}']).dropWhile isNameChar = ['}', '}'] := by
    rw [List.dropWhile_append_of_pos hall]
    simp [isNameChar]
  obtain ⟨c, cs, hcs⟩ := List.exists_cons_of_ne_nil hne
  rw [slotAt.eq_1, htake, hdrop, hcs]
  show some (String.ofList (c :: cs), []) = some (name, [])
  rw [← hcs, String.ofList_toList]

theorem piecesOfChars_nil (fuel : Nat) : piecesOfChars fuel [] [] = [] := by
  cases fuel <;> rfl

/-- **A written placeholder reads as that one placeholder.** -/
theorem pieces_slotText {name : String} (h : isName name = true) : pieces (slotText name) = [.slot name] := by
  unfold pieces
  rw [slotText_toList, piecesOfChars.eq_3, slotAt_slotText h]
  dsimp only
  rw [piecesOfChars_nil]
  rfl

theorem placeholderNames_slotText {name : String} (h : isName name = true) :
    placeholderNames (slotText name) = [name] := by
  simp [placeholderNames, pieces_slotText h]

theorem wholePlaceholder?_slotText {name : String} (h : isName name = true) :
    wholePlaceholder? (slotText name) = some name := by
  simp [wholePlaceholder?, pieces_slotText h]

theorem placeholderLiteral_str (k : String) : placeholderLiteral (.str k) = slotText (placeholderForKey k) := rfl

@[simp] theorem mem_sortedNames {x : String} {names : List String} : x ∈ sortedNames names ↔ x ∈ names := by
  rw [sortedNames, List.mem_eraseDups, List.mem_mergeSort]

/-- Sorting is invisible to a membership test; stated for `contains` so that
checks on concrete graphs evaluate without running the sort. -/
theorem contains_sortedNames (x : String) (names : List String) :
    (sortedNames names).contains x = names.contains x := by
  rw [Bool.eq_iff_iff, List.contains_iff_mem, List.contains_iff_mem, mem_sortedNames]

end Template

/-! ## Writing a field into its input -/

namespace Inputs

variable {ins : Inputs} {name x : String} {v : InputValue} {p : String × InputValue}

theorem has_set_of_has (h : ins.has x = true) : (set ins name v).has x = true := by
  unfold set
  split
  · obtain ⟨q, hq, hqx⟩ := List.any_eq_true.1 h
    refine List.any_eq_true.2 ⟨if q.1 == name then (name, v) else q, List.mem_map_of_mem hq, ?_⟩
    by_cases hn : q.1 = name <;> simp_all
  · rw [has, List.any_append, Bool.or_eq_true]
    exact .inl h

theorem mem_set_self (h : ins.has name = true) : (name, v) ∈ set ins name v := by
  unfold set
  rw [if_pos h]
  obtain ⟨q, hq, hqn⟩ := List.any_eq_true.1 h
  exact List.mem_map.2 ⟨q, hq, by simp [beq_iff_eq.1 hqn]⟩

theorem mem_set_of_ne (hp : p ∈ ins) (hne : p.1 ≠ name) : p ∈ set ins name v := by
  unfold set
  split
  · exact List.mem_map.2 ⟨p, hp, by simp [hne]⟩
  · exact List.mem_append_left _ hp

end Inputs

namespace Graph

variable {g : Graph} {t : String × String} {v : InputValue}

/-- The literal placed for a field: its placeholder between double braces. -/
def fieldLiteral (key : Value) : InputValue := .literal (.str (Template.placeholderLiteral key))

/-- Place one selected field `b = (key, node id, input)`: the node takes the
field's literal in that input when it is found and has the input. -/
def write (g : Graph) (b : Value × String × String) : Graph :=
  match g.get? b.2.1 with
  | some n => if n.inputs.has b.2.2 then g.modify b.2.1 (·.setInput b.2.2 (fieldLiteral b.1)) else g
  | none => g

/-- **Placing a selected field never fails**: node ids and input names are
texts, which can be looked up. -/
theorem place_ofBinding (b : Value × String × String) : g.place (Placement.ofBinding b) = .ok (g.write b) := by
  obtain ⟨k, id, name⟩ := b
  unfold place write Placement.ofBinding
  dsimp only
  cases g.get? id with
  | none => rfl
  | some n => by_cases h : n.inputs.has name = true <;> simp [h, Value.hashable, fieldLiteral] <;> rfl

theorem placeAll_ofBindings (bs : Bindings) :
    g.placeAll (bs.map Placement.ofBinding) = .ok (bs.foldl write g) := by
  induction bs generalizing g with
  | nil => rfl
  | cons b bs ih =>
    unfold placeAll at ih ⊢
    rw [List.map_cons, List.foldlM_cons, place_ofBinding, MappingState.ok_bind, List.foldl_cons]
    exact ih

/-- **A template is the graph with every selected field written in turn.** -/
theorem template_eq {s : MappingState} (hw : ∀ m ∈ s.fields, m.selected.whole = true) {keys : List String}
    (hk : s.fields.map (·.field.key) = keys.map .str) (hnd : keys.Nodup) :
    g.template s = .ok (s.selections.foldl write g) := by
  unfold template
  rw [MappingState.bindings_eq hw hk hnd, MappingState.ok_bind, placeAll_ofBindings]

/-- Node `t.1` holds `v` in its input `t.2`. -/
def Holds (g : Graph) (t : String × String) (v : InputValue) : Prop :=
  ∃ n ∈ g.nodes, n.id = t.1 ∧ (t.2, v) ∈ n.inputs

/-- Node `t.1` has an input `t.2`. -/
def HasInput (g : Graph) (t : String × String) : Prop :=
  ∃ n ∈ g.nodes, n.id = t.1 ∧ n.inputs.has t.2 = true

theorem mem_modify {id : String} {f : Node → Node} {m : Node} (h : m ∈ (g.modify id f).nodes) :
    ∃ n ∈ g.nodes, m = if n.id == id then f n else n :=
  List.mem_map.1 h |>.imp fun _ h => ⟨h.1, h.2.symm⟩

theorem mem_modify_of_mem {id : String} {f : Node → Node} {n : Node} (h : n ∈ g.nodes) :
    (if n.id == id then f n else n) ∈ (g.modify id f).nodes :=
  List.mem_map_of_mem h

theorem ids_write (b : Value × String × String) : (g.write b).nodes.map (·.id) = g.nodes.map (·.id) := by
  unfold write
  split
  · split
    · simp only [modify, List.map_map]
      refine List.map_congr_left fun n _ => ?_
      by_cases h : n.id = b.2.1 <;> simp [h, Node.setInput]
    · rfl
  · rfl

theorem ids_foldl_write (bs : Bindings) : (bs.foldl write g).nodes.map (·.id) = g.nodes.map (·.id) := by
  induction bs generalizing g with
  | nil => rfl
  | cons b bs ih => rw [List.foldl_cons, ih, ids_write]

/-- A write keeps every input of every node. -/
theorem hasInput_write (h : g.HasInput t) (b : Value × String × String) : (g.write b).HasInput t := by
  obtain ⟨n, hn, hid, hhas⟩ := h
  unfold write
  split
  · split
    · refine ⟨_, mem_modify_of_mem hn, ?_, ?_⟩
      · split <;> exact hid
      · by_cases hb : n.id = b.2.1
        · simpa [hb, Node.setInput] using Inputs.has_set_of_has hhas
        · simpa [hb] using hhas
    · exact ⟨n, hn, hid, hhas⟩
  · exact ⟨n, hn, hid, hhas⟩

theorem hasInput_foldl_write (h : g.HasInput t) (bs : Bindings) : (bs.foldl write g).HasInput t := by
  induction bs generalizing g with
  | nil => exact h
  | cons b bs ih => exact ih (hasInput_write h b)

theorem get?_of_nodup {n : Node} (hids : (g.nodes.map (·.id)).Nodup) (hn : n ∈ g.nodes) : g.get? n.id = some n := by
  obtain ⟨m, hm⟩ : ∃ m, g.nodes.find? (fun x => x.id == n.id) = some m := by
    cases h : g.nodes.find? (fun x => x.id == n.id) with
    | some m => exact ⟨m, rfl⟩
    | none =>
      simp only [List.find?_eq_none, beq_iff_eq] at h
      exact absurd rfl (h n hn)
  have hk : m.id = n.id := by simpa using List.find?_some hm
  unfold get?
  rw [hm, List.inj_on_of_nodup_map hids (List.mem_of_find?_eq_some hm) hn hk]

/-- **A write puts the field's literal into its input**, when the node ids are
distinct and the node has the input. -/
theorem write_holds (hids : (g.nodes.map (·.id)).Nodup) (h : g.HasInput t) (k : Value) :
    (g.write (k, t)).Holds t (fieldLiteral k) := by
  obtain ⟨n, hn, hid, hhas⟩ := h
  unfold write
  dsimp only
  rw [← hid, get?_of_nodup hids hn]
  dsimp only
  rw [if_pos hhas]
  refine ⟨_, mem_modify_of_mem hn, ?_, ?_⟩
  · split <;> exact hid
  · rw [if_pos (beq_self_eq_true n.id)]
    exact Inputs.mem_set_self hhas

/-- **A write leaves what other inputs hold**, and writing the same literal
again keeps it. -/
theorem holds_write (h : g.Holds t v) {b : Value × String × String} (hb : b.2 ≠ t ∨ fieldLiteral b.1 = v) :
    (g.write b).Holds t v := by
  obtain ⟨n, hn, hid, hmem⟩ := h
  unfold write
  split
  · split
    · refine ⟨_, mem_modify_of_mem hn, ?_, ?_⟩
      · split <;> exact hid
      · by_cases hb' : n.id = b.2.1
        · simp only [hb', beq_self_eq_true, if_true, Node.setInput]
          by_cases hname : t.2 = b.2.2
          · -- the same input: the same literal is written again
            have hv : fieldLiteral b.1 = v := hb.resolve_left fun hne => hne (Prod.ext (hb'.symm.trans hid) hname.symm)
            rw [hname, ← hv]
            exact Inputs.mem_set_self (hname ▸ has_of_mem_inputs hmem)
          · exact Inputs.mem_set_of_ne hmem hname
        · simpa [hb'] using hmem
    · exact ⟨n, hn, hid, hmem⟩
  · exact ⟨n, hn, hid, hmem⟩

theorem holds_foldl_write (h : g.Holds t v) {bs : Bindings} (hbs : ∀ b ∈ bs, b.2 ≠ t ∨ fieldLiteral b.1 = v) :
    (bs.foldl write g).Holds t v := by
  induction bs generalizing g with
  | nil => exact h
  | cons b bs ih =>
    exact ih (holds_write h (hbs b List.mem_cons_self)) fun b' hb' => hbs b' (List.mem_cons_of_mem _ hb')

/-- **An input that only one field writes holds that field's literal** once
all are written. -/
theorem holds_foldl_write_of_mem (hids : (g.nodes.map (·.id)).Nodup) (h : g.HasInput t) {k : Value}
    {bs : Bindings} (hk : (k, t) ∈ bs) (honly : ∀ b ∈ bs, b.2 = t → b.1 = k) :
    (bs.foldl write g).Holds t (fieldLiteral k) := by
  induction bs generalizing g with
  | nil => exact absurd hk List.not_mem_nil
  | cons b bs ih =>
    have honly' : ∀ b ∈ bs, b.2 = t → b.1 = k := fun b' hb' => honly b' (List.mem_cons_of_mem _ hb')
    rw [List.foldl_cons]
    by_cases hrest : (k, t) ∈ bs
    · exact ih (by rw [ids_write]; exact hids) (hasInput_write h b) hrest honly'
    · -- this is the field's write; the later ones write elsewhere or the same literal
      have hb : b = (k, t) := (List.mem_cons.1 hk).resolve_right hrest |>.symm
      subst hb
      refine holds_foldl_write (write_holds hids h k) fun b' hb' => ?_
      by_cases ht : b'.2 = t
      · exact .inr (by rw [honly' b' hb' ht])
      · exact .inl ht

/-! ## The template check -/

theorem mem_placeholders {name : String} (hn : Template.isName name = true)
    (h : g.Holds t (.literal (.str (Template.slotText name)))) : name ∈ g.placeholders := by
  obtain ⟨n, hn', -, hmem⟩ := h
  unfold placeholders
  rw [Template.mem_sortedNames, List.mem_flatMap]
  refine ⟨n, hn', List.mem_flatMap.2 ⟨_, hmem, ?_⟩⟩
  simp [Template.placeholderNames_slotText hn]

/-- A graph passes the template check when it holds the prompt's placeholder
and, for a category that starts from an image, the image's. -/
theorem templateErrors_eq_nil {c : Category} (hp : "positive_prompt" ∈ g.placeholders)
    (hi : c.needsInputImage = true → "image_filename" ∈ g.placeholders) : g.templateErrors c = [] := by
  unfold templateErrors
  cases hc : c.needsInputImage with
  | false => simp [hp]
  | true => simp [hp, hi hc]

end Graph

namespace Category

theorem positive_mem_requiredKeys (c : Category) : "positive_text" ∈ c.requiredKeys := by
  cases c <;> simp [requiredKeys]

theorem image_mem_requiredKeys {c : Category} (h : c.needsInputImage = true) : "image" ∈ c.requiredKeys := by
  cases c <;> simp_all [requiredKeys, needsInputImage]

/-- The placeholders of the required fields read as placeholders. -/
theorem isName_requiredKeys (c : Category) : ∀ r ∈ c.requiredKeys, Template.isName (Template.placeholderForKey r) = true := by
  cases c <;> decide

end Category

namespace Graph

variable {g : Graph} {schema : Schema} {c : Category}

/-- The input a required field of an analysis selects: the field has a
candidate when the analysis maps all fields, and the candidate names an input
of the graph. -/
theorem required_selected (hmapped : (MappingState.analyze g c schema).allMapped = .ok true) {r : String}
    (hr : r ∈ c.requiredKeys) :
    ∃ t, (Value.str r, t) ∈ (MappingState.analyze g c schema).selections ∧ g.HasInput t := by
  obtain ⟨m, hm, hkey, hreq⟩ := @MappingState.mem_analyze_required g c schema r hr
  have hall : ((MappingState.analyze g c schema).fields.all fun m => !m.required || !m.candidates.isEmpty) = true := by
    rw [MappingState.allMapped_analyze] at hmapped
    exact Except.ok.inj hmapped
  have hne : m.candidates.isEmpty = false := by simpa [hreq] using List.all_eq_true.1 hall m hm
  obtain ⟨cand, rest, hcands⟩ := List.exists_cons_of_ne_nil (List.isEmpty_eq_false_iff.1 hne)
  have hcand : m.chosen? = some cand := by rw [MappingState.analyze_chosen hm, hcands]; rfl
  obtain ⟨n, hn, key, hhas, rfl⟩ := analyze_offers hm cand (by rw [hcands]; exact List.mem_cons_self)
  refine ⟨(n.id, key), List.mem_filterMap.2 ⟨m, hm, ?_⟩, n, hn, rfl, hhas⟩
  rw [hcand, hkey]
  rfl

/-- **A fully mapped analysis makes a template that passes the template
check**, when no field of another key selects the input a required field
selects: the template holds the prompt's placeholder, and, for a category that
starts from an image, the image's. -/
theorem templateErrors_template_analyze (hids : (g.nodes.map (·.id)).Nodup)
    (hmapped : (MappingState.analyze g c schema).allMapped = .ok true)
    (hsep : ∀ bs, (MappingState.analyze g c schema).bindings = .ok bs →
      ∀ r ∈ c.requiredKeys, ∀ k t, (Value.str r, t) ∈ bs → (k, t) ∈ bs → k = .str r) :
    ∃ tpl, g.template (MappingState.analyze g c schema) = .ok tpl ∧ tpl.templateErrors c = [] ∧
      "positive_prompt" ∈ tpl.placeholders ∧ (c.needsInputImage = true → "image_filename" ∈ tpl.placeholders) := by
  have hwhole := @MappingState.analyze_whole g c schema
  have hkeys := @MappingState.analyze_keys g c schema
  have hb := MappingState.bindings_eq hwhole hkeys (Category.keys_nodup c g.classTypes)
  -- the placeholder of each required field is written and no later field overwrites it
  have hreq : ∀ r ∈ c.requiredKeys, Template.placeholderForKey r ∈
      ((MappingState.analyze g c schema).selections.foldl write g).placeholders := by
    intro r hr
    obtain ⟨t, hsel, hhas⟩ := required_selected hmapped hr
    have honly : ∀ b ∈ (MappingState.analyze g c schema).selections, b.2 = t → b.1 = .str r := by
      intro b hb' ht
      exact hsep _ hb r hr b.1 t hsel (ht ▸ hb')
    -- the literal written is the placeholder itself, which the unifier would find only by unfolding
    have hholds := holds_foldl_write_of_mem hids hhas hsel honly
    rw [fieldLiteral, Template.placeholderLiteral_str] at hholds
    exact mem_placeholders (Category.isName_requiredKeys c r hr) hholds
  have hpos := hreq _ (Category.positive_mem_requiredKeys c)
  have himg : c.needsInputImage = true → "image_filename" ∈
      ((MappingState.analyze g c schema).selections.foldl write g).placeholders :=
    fun h => hreq _ (Category.image_mem_requiredKeys h)
  exact ⟨_, template_eq hwhole hkeys (Category.keys_nodup c g.classTypes),
    templateErrors_eq_nil hpos himg, hpos, himg⟩

/-- A sampler reading its positive and its negative conditioning from two
encoders: the analysis maps all fields, the two prompts select different
inputs, and the template passes the check. -/
theorem templateErrors_template_traced_prompts :
    ∃ g : Graph, g =
        { nodes :=
            [{ id := "6", classType := "CLIPTextEncode", inputs := [("text", .literal (.str "a cat"))] },
             { id := "7", classType := "CLIPTextEncode", inputs := [("text", .literal (.str "blurry"))] },
             { id := "3", classType := "KSampler",
               inputs := [("positive", .connection "6" 0), ("negative", .connection "7" 0)] }],
          wrapped := false } ∧
      (g.nodes.map (·.id)).Nodup ∧
      (MappingState.analyze g .textToImage Schema.empty).allMapped = .ok true ∧
      (∀ bs, (MappingState.analyze g .textToImage Schema.empty).bindings = .ok bs →
        ∀ r ∈ Category.textToImage.requiredKeys, ∀ k t, (Value.str r, t) ∈ bs → (k, t) ∈ bs → k = .str r) ∧
      ∃ tpl, g.template (MappingState.analyze g .textToImage Schema.empty) = .ok tpl ∧
        tpl.templateErrors .textToImage = [] ∧ "positive_prompt" ∈ tpl.placeholders ∧
        (Category.textToImage.needsInputImage = true → "image_filename" ∈ tpl.placeholders) := by
  refine ⟨_, rfl, ?hids, ?hmapped, ?hsep, templateErrors_template_analyze ?hids ?hmapped ?hsep⟩
  · decide
  · unfold MappingState.analyze
    rw [Category.optionalKeys_classTypes]
    rfl
  · intro bs hbs r hr k t hr' hk
    unfold MappingState.analyze at hbs
    rw [Category.optionalKeys_classTypes] at hbs
    have hsel : bs = [(.str "positive_text", "6", "text"), (.str "negative_text", "7", "text")] :=
      (Except.ok.inj (Eq.trans hbs.symm rfl))
    simp only [Category.requiredKeys, List.mem_singleton] at hr
    subst hr hsel
    simp only [List.mem_cons, List.not_mem_nil, or_false] at hr' hk
    rcases hr' with h | h
    · obtain rfl := (Prod.mk.inj h).2
      rcases hk with hk | hk
      · exact (Prod.mk.inj hk).1
      · simp at hk
    · simp at h

/-- An encoder that no conditioning edge classifies, titled by its class type
alone, is a candidate for both prompts: the analysis maps all fields, and the
negative prompt, written after the positive one, takes its input, so the
template lacks the prompt's placeholder. -/
theorem template_prompt_overwritten :
    ∃ g : Graph, g =
        { nodes := [{ id := "1", classType := "CLIPTextEncode", inputs := [("text", .literal (.str "a cat"))] }],
          wrapped := false } ∧
      (MappingState.analyze g .textToImage Schema.empty).allMapped = .ok true ∧
      (g.template (MappingState.analyze g .textToImage Schema.empty)).map (·.templateErrors .textToImage) =
        .ok ["Missing required placeholder " ++ Template.slotText "positive_prompt"] := by
  refine ⟨_, rfl, ?_, ?_⟩ <;> unfold MappingState.analyze <;> rw [Category.optionalKeys_classTypes]
  · rfl
  · unfold templateErrors placeholders
    simp only [Template.contains_sortedNames]
    rfl

end Graph

end NodeFlow
