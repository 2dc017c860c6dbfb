import NodeFlow.Graph.Write
/-!
# The canonical document of a graph

A document is a list of members; a name may repeat, and a lookup finds the
first. `Fields.insert` keeps a present name in place, `Fields.ofPairs` merges
repeated names as the reader does. Each lookup or merge only ever returns
members it was given (`Fields.mem_of_get?`, `Fields.mem_ofPairs`).

`Graph.toFields` writes the nodes, at the top or under `nodes`, then the groups
and notes when there are any, then each metadata member whose name is still
free: every member of the written document is one of these (`mem_toFields`).

A graph is `Sectioned` when its document falls apart into the same parts on
reading: no metadata member takes a reserved name, and at the top no node has a
reserved id and no metadata member is itself a node. Reading a document always
gives a sectioned graph (`ofFields_sectioned`), and it fails only on a list of
nodes or on groups that cannot be read (`ofFields_ok`).
-/

namespace NodeFlow

open Json

namespace Json.Fields

variable {fs ps : Fields} {k : String} {v : Value} {p : String × Value}

theorem mem_of_get? (h : fs.get? k = some v) : (k, v) ∈ fs := by
  unfold get? at h
  obtain ⟨q, hq, rfl⟩ := Option.map_eq_some_iff.1 h
  have hk : q.1 = k := by simpa using List.find?_some hq
  rw [← hk]
  exact List.mem_of_find?_eq_some hq

theorem exists_get?_of_mem (h : (k, v) ∈ fs) : ∃ v', fs.get? k = some v' := by
  have hsome : (fs.find? fun p => p.1 == k).isSome := List.find?_isSome.2 ⟨(k, v), h, by simp⟩
  obtain ⟨q, hq⟩ := Option.isSome_iff_exists.1 hsome
  exact ⟨q.2, by unfold get?; rw [hq]; rfl⟩

theorem get?_eq_none (h : ∀ v, (k, v) ∉ fs) : fs.get? k = none := by
  cases hk : fs.get? k with
  | none => rfl
  | some v => exact absurd (mem_of_get? hk) (h v)

theorem has_iff : fs.has k = true ↔ ∃ v, (k, v) ∈ fs := by
  unfold has
  rw [List.any_eq_true]
  constructor
  · rintro ⟨⟨k', v⟩, hmem, hk⟩
    rw [show k' = k by simpa using hk] at hmem
    exact ⟨v, hmem⟩
  · rintro ⟨v, hmem⟩
    exact ⟨(k, v), hmem, by simp⟩

theorem mem_insert (h : p ∈ fs.insert k v) : p ∈ fs ∨ p = (k, v) := by
  unfold insert at h
  split at h
  · obtain ⟨q, hq, hp⟩ := List.mem_map.1 h
    split at hp
    · exact .inr hp.symm
    · exact .inl (hp ▸ hq)
  · rcases List.mem_append.1 h with h | h
    · exact .inl h
    · exact .inr (List.mem_singleton.1 h)

theorem mem_insert_self : (k, v) ∈ fs.insert k v := by
  unfold insert
  split
  · rename_i hk
    obtain ⟨v', hv'⟩ := has_iff.1 hk
    exact List.mem_map.2 ⟨(k, v'), hv', by simp⟩
  · exact List.mem_append_right _ List.mem_cons_self

theorem mem_insert_of_mem (h : p ∈ fs) (hk : p.1 ≠ k) : p ∈ fs.insert k v := by
  unfold insert
  split
  · exact List.mem_map.2 ⟨p, h, by simp [hk]⟩
  · exact List.mem_append_left _ h

/-- A name present before an insertion is still present, with some value. -/
theorem exists_mem_insert {k' : String} {v' : Value} (h : (k', v') ∈ fs) :
    ∃ w, (k', w) ∈ fs.insert k v := by
  by_cases hk : k' = k
  · exact ⟨v, hk ▸ mem_insert_self⟩
  · exact ⟨v', mem_insert_of_mem h hk⟩

theorem mem_insertIfAbsent (h : p ∈ fs.insertIfAbsent k v) : p ∈ fs ∨ p = (k, v) := by
  unfold insertIfAbsent at h
  split at h
  · exact .inl h
  · rcases List.mem_append.1 h with h | h
    · exact .inl h
    · exact .inr (List.mem_singleton.1 h)

theorem mem_insertIfAbsent_of_mem (h : p ∈ fs) : p ∈ fs.insertIfAbsent k v := by
  unfold insertIfAbsent
  split
  · exact h
  · exact List.mem_append_left _ h

theorem mem_foldl_insert {acc : Fields} (h : p ∈ ps.foldl (fun acc q => insert acc q.1 q.2) acc) :
    p ∈ acc ∨ p ∈ ps := by
  induction ps generalizing acc with
  | nil => exact .inl h
  | cons q ps ih =>
    rcases ih h with h | h
    · rcases mem_insert h with h | rfl
      · exact .inl h
      · exact .inr List.mem_cons_self
    · exact .inr (List.mem_cons_of_mem q h)

/-- **Merging pairs keeps only given pairs.** -/
theorem mem_ofPairs (h : p ∈ ofPairs ps) : p ∈ ps := by
  rcases mem_foldl_insert h with h | h
  · exact absurd h List.not_mem_nil
  · exact h

theorem exists_mem_foldl_insert {acc : Fields} {k : String} :
    ((∃ v, (k, v) ∈ acc) ∨ ∃ v, (k, v) ∈ ps) →
      ∃ w, (k, w) ∈ ps.foldl (fun acc q => insert acc q.1 q.2) acc := by
  induction ps generalizing acc with
  | nil =>
    rintro (h | ⟨v, hv⟩)
    · exact h
    · exact absurd hv List.not_mem_nil
  | cons q ps ih =>
    rintro (⟨v, hv⟩ | ⟨v, hv⟩)
    · exact ih (.inl (exists_mem_insert hv))
    · rcases List.mem_cons.1 hv with rfl | hv
      · exact ih (.inl ⟨v, mem_insert_self⟩)
      · exact ih (.inr ⟨v, hv⟩)

/-- **Merging pairs loses no name.** -/
theorem exists_mem_ofPairs (h : (k, v) ∈ ps) : ∃ w, (k, w) ∈ ofPairs ps :=
  exists_mem_foldl_insert (.inr ⟨v, h⟩)

end Json.Fields

namespace Node

theorem ofFields_id (id : String) (fs : Fields) (schema : Schema) :
    (Node.ofFields id fs schema).id = id := by
  unfold Node.ofFields
  dsimp only
  cases schema.find? (((fs.get? "class_type").map Value.display).getD "") <;> rfl

theorem ofFields_mode (id : String) (fs : Fields) (schema : Schema) :
    (Node.ofFields id fs schema).mode = readMode (fs.get? "mode") := by
  unfold Node.ofFields
  dsimp only
  cases schema.find? (((fs.get? "class_type").map Value.display).getD "") <;> rfl

end Node

namespace Graph

variable {g : Graph}

/-- The node members of a graph's document, keyed by id. -/
def nodeMembers (g : Graph) : Fields := g.nodes.map fun n => (n.id, .obj n.toFields)

theorem mem_foldl_insertIfAbsent {ms acc : Fields} {p : String × Value}
    (h : p ∈ ms.foldl (fun acc (kv : String × Value) => Fields.insertIfAbsent acc kv.1 kv.2) acc) :
    p ∈ acc ∨ p ∈ ms := by
  induction ms generalizing acc with
  | nil => exact .inl h
  | cons q ms ih =>
    rcases ih h with h | h
    · rcases Fields.mem_insertIfAbsent h with h | rfl
      · exact .inl h
      · exact .inr List.mem_cons_self
    · exact .inr (List.mem_cons_of_mem q h)

/-- An insertion made unless a condition holds adds at most its own member. -/
theorem mem_insert_unless {c : Bool} {fs : Fields} {k : String} {v : Value} {p : String × Value}
    (h : p ∈ (if c then fs else fs.insert k v)) : p ∈ fs ∨ (c = false ∧ p = (k, v)) := by
  cases c with
  | true => exact .inl h
  | false => exact (Fields.mem_insert h).imp id fun h => ⟨rfl, h⟩

theorem mem_foldl_insertIfAbsent_of_mem {ms acc : Fields} {p : String × Value} (h : p ∈ acc) :
    p ∈ ms.foldl (fun acc (kv : String × Value) => Fields.insertIfAbsent acc kv.1 kv.2) acc := by
  induction ms generalizing acc with
  | nil => exact h
  | cons q ms ih => exact ih (Fields.mem_insertIfAbsent_of_mem h)

theorem mem_insert_unless_of_mem {c : Bool} {fs : Fields} {k : String} {v : Value}
    {p : String × Value} (h : p ∈ fs) (hk : p.1 ≠ k) : p ∈ (if c then fs else fs.insert k v) := by
  cases c with
  | true => exact h
  | false => exact Fields.mem_insert_of_mem h hk

/-- A wrapped graph's document holds its node map under `nodes`. -/
theorem nodes_mem_toFields (hw : g.wrapped = true) : ("nodes", .obj g.nodeMembers) ∈ g.toFields := by
  unfold toFields
  refine mem_foldl_insertIfAbsent_of_mem (mem_insert_unless_of_mem
    (mem_insert_unless_of_mem ?_ (show "nodes" ≠ "groups" by decide)) (show "nodes" ≠ "notes" by decide))
  rw [hw, if_pos rfl]
  exact List.mem_singleton_self _

/-- **Every member of a graph's document** is its node map (wrapped), one of
its nodes (unwrapped), its groups or notes (when there are any), or one of its
metadata members. -/
theorem mem_toFields {k : String} {v : Value} (h : (k, v) ∈ g.toFields) :
    (g.wrapped = true ∧ k = "nodes" ∧ v = .obj g.nodeMembers) ∨
      (g.wrapped = false ∧ ∃ n ∈ g.nodes, k = n.id ∧ v = .obj n.toFields) ∨
      (g.groups ≠ [] ∧ k = "groups" ∧ v = .arr (g.groups.map Group.toValue)) ∨
      (g.notes ≠ [] ∧ k = "notes" ∧ v = .arr (g.notes.map Note.toValue)) ∨
      (k, v) ∈ g.metadata := by
  unfold toFields at h
  rcases mem_foldl_insertIfAbsent h with h | h
  · rcases mem_insert_unless h with h | ⟨hn, hkv⟩
    · rcases mem_insert_unless h with h | ⟨hg, hkv⟩
      · cases hw : g.wrapped
        · rw [hw, if_neg Bool.false_ne_true] at h
          obtain ⟨n, hn, hkv⟩ := List.mem_map.1 h
          exact .inr (.inl ⟨rfl, n, hn, (Prod.mk.inj hkv).1.symm, (Prod.mk.inj hkv).2.symm⟩)
        · rw [hw, if_pos rfl, List.mem_singleton] at h
          exact .inl ⟨rfl, (Prod.mk.inj h).1, (Prod.mk.inj h).2⟩
      · exact .inr (.inr (.inl ⟨List.isEmpty_eq_false_iff.1 hg, (Prod.mk.inj hkv).1,
          (Prod.mk.inj hkv).2⟩))
    · exact .inr (.inr (.inr (.inl ⟨List.isEmpty_eq_false_iff.1 hn, (Prod.mk.inj hkv).1,
        (Prod.mk.inj hkv).2⟩)))
  · exact .inr (.inr (.inr (.inr h)))

/-! ## Reading a document -/

/-- Where a document keeps its node map: under `nodes` when that is an object
(the document is wrapped), else at the top. -/
def nodeSection (doc : Fields) : Bool × Fields :=
  match doc.get? "nodes" with
  | some (.obj fs) => (true, fs)
  | _ => (false, doc)

/-- The node a member of the node map is read as: an object with a
`class_type`, and at the top never one under a reserved name. -/
def memberNode (wrapped : Bool) (schema : Schema) (kv : String × Value) : Option Node :=
  if (!wrapped && reservedNames.contains kv.1) = true then none
  else match kv.2 with
    | .obj fs => if Fields.has fs "class_type" = true then some (Node.ofFields kv.1 fs schema) else none
    | _ => none

/-- The metadata read from a document: its members under unreserved names,
and at the top only those that are not nodes. -/
def metadataOf (wrapped : Bool) (doc : Fields) : Fields :=
  if wrapped = true then doc.filter fun kv => !reservedNames.contains kv.1
  else doc.filter fun kv => !reservedNames.contains kv.1 && !isNodeValue kv.2

variable {doc : Fields} {schema : Schema}

/-- **Reading a document** fails on a list of nodes and on groups that cannot
be read; otherwise the graph is made of the nodes of its node map, its groups
and notes, and its metadata. -/
theorem ofFields_ok : ofFields doc schema = .ok g ↔
    (∀ xs, doc.get? "nodes" ≠ some (.arr xs)) ∧ ∃ gs, readGroups (doc.get? "groups") = .ok gs ∧
      g = { nodes := (nodeSection doc).2.filterMap (memberNode (nodeSection doc).1 schema)
            groups := gs
            notes := readNotes (doc.get? "notes")
            wrapped := (nodeSection doc).1
            metadata := metadataOf (nodeSection doc).1 doc } := by
  constructor
  · intro h
    unfold ofFields at h
    simp only [bind, Except.bind] at h
    split at h
    · cases h
    · rename_i hn
      split at h
      · cases h
      · rename_i gs hgs
        cases h
        exact ⟨hn, gs, hgs, rfl⟩
  · rintro ⟨hn, gs, hgs, rfl⟩
    unfold ofFields
    simp only [bind, Except.bind]
    split
    · rename_i heq
      rw [hgs] at heq
      cases heq
    · rename_i heq
      rw [hgs] at heq
      cases heq
      rfl

/-- The parts of a document that reading sorts it into: no metadata member
under a reserved name, and at the top no node under a reserved id and no
metadata member that is itself a node. -/
structure Sectioned (g : Graph) : Prop where
  metadata_unreserved : ∀ kv ∈ g.metadata, kv.1 ∉ reservedNames
  ids_unreserved : g.wrapped = false → ∀ n ∈ g.nodes, n.id ∉ reservedNames
  metadata_not_node : g.wrapped = false → ∀ kv ∈ g.metadata, isNodeValue kv.2 = false

/-- A member read as a node is an object with a `class_type`, under an
unreserved name at the top. -/
theorem memberNode_eq_some {wrapped : Bool} {kv : String × Value} {n : Node}
    (h : memberNode wrapped schema kv = some n) :
    ∃ fs, kv.2 = .obj fs ∧ Fields.has fs "class_type" = true ∧ (wrapped = false → kv.1 ∉ reservedNames) ∧
      n = Node.ofFields kv.1 fs schema := by
  unfold memberNode at h
  split at h
  · cases h
  · rename_i hr
    have hfree : wrapped = false → kv.1 ∉ reservedNames := fun hw hmem => hr (by simpa [hw] using hmem)
    split at h
    · rename_i fs hfs
      split at h
      · rename_i hc
        cases h
        exact ⟨fs, hfs, hc, hfree, rfl⟩
      · cases h
    · cases h

/-- **Reading a document gives a sectioned graph.** -/
theorem ofFields_sectioned (h : ofFields doc schema = .ok g) : g.Sectioned := by
  obtain ⟨-, gs, -, rfl⟩ := ofFields_ok.1 h
  refine ⟨fun kv hkv => ?_, fun hw n hn => ?_, fun hw kv hkv => ?_⟩
  · unfold metadataOf at hkv
    split at hkv
    · simpa using (List.mem_filter.1 hkv).2
    · exact (by simpa using (List.mem_filter.1 hkv).2 : kv.1 ∉ reservedNames ∧ _).1
  · obtain ⟨kv, -, hkv⟩ := List.mem_filterMap.1 hn
    obtain ⟨fs, -, -, hfree, rfl⟩ := memberNode_eq_some hkv
    rw [Node.ofFields_id]
    exact hfree hw
  · dsimp only at hw
    unfold metadataOf at hkv
    rw [if_neg (by simp [hw])] at hkv
    obtain ⟨-, hnode⟩ : kv.1 ∉ reservedNames ∧ isNodeValue kv.2 = false := by
      simpa using (List.mem_filter.1 hkv).2
    exact hnode

/-- A fold whose every step succeeds succeeds. -/
theorem foldlM_except_ok {α β ε : Type} {f : β → α → Except ε β} (l : List α)
    (hf : ∀ acc, ∀ a ∈ l, ∃ b, f acc a = .ok b) (acc : β) : ∃ b, l.foldlM f acc = .ok b := by
  induction l generalizing acc with
  | nil => exact ⟨acc, rfl⟩
  | cons a l ih =>
    obtain ⟨b, hb⟩ := hf acc a List.mem_cons_self
    rw [List.foldlM_cons, hb]
    exact ih (fun acc a ha => hf acc a (List.mem_cons_of_mem _ ha)) b

/-- **Groups are read** when no member list is a value that cannot be
iterated. -/
theorem readGroups_ok {items : List Value}
    (h : ∀ fs, .obj fs ∈ items → ∀ raw, Fields.get? fs "member_nodes" = some raw →
      ∃ xs, Value.elements raw = Except.ok xs) :
    ∃ gs, readGroups (some (.arr items)) = .ok gs := by
  unfold readGroups
  refine foldlM_except_ok _ (fun acc p hp => ?_) []
  obtain ⟨item, i⟩ := p
  cases item with
  | obj fs =>
    -- the member list is read, or taken as empty when it is missing or falsy
    dsimp only
    cases hm : Fields.get? fs "member_nodes" with
    | none => exact ⟨_, rfl⟩
    | some raw =>
      obtain ⟨xs, hxs⟩ := h fs (List.fst_mem_of_mem_zipIdx hp) raw hm
      rw [Option.getD_some]
      split
      · rw [hxs]
        exact ⟨_, rfl⟩
      · exact ⟨_, rfl⟩
  | _ => exact ⟨acc, rfl⟩

end Graph

end NodeFlow
