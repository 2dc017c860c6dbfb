import NodeFlow.Proofs.Graph.Links
import NodeFlow.Template.Fill
import NodeFlow.Submission.Compile
/-!
# Passes that rewrite literals

Filling placeholders, writing a seed and applying overrides only ever replace
the literal value of an input: every node keeps its id and its connections are
among the ones it had. So each of them grows the graph (`fill_grows`,
`reseed_grows`, `override_grows`).

Two fold principles carry the proofs. A fold that appends one result per
element, each related to its element, ends with results related one to one to
the elements (`foldlM_append_images`); a fold whose every step keeps a property
ends with it (`foldlM_except_rec`).
-/

namespace NodeFlow

open Json

section Folds

variable {α γ δ ε : Type}

/-- **A fold that appends one image per element** ends with the images: each
is related to an element, and each element has one. -/
theorem foldlM_append_images {R : α → γ → Prop} {f : List γ × δ → α → Except ε (List γ × δ)}
    (hf : ∀ acc a acc', f acc a = .ok acc' → ∃ y, acc'.1 = acc.1 ++ [y] ∧ R a y) :
    ∀ (l : List α) (acc res : List γ × δ), l.foldlM f acc = .ok res →
      ∃ ys, res.1 = acc.1 ++ ys ∧ (∀ y ∈ ys, ∃ a ∈ l, R a y) ∧ (∀ a ∈ l, ∃ y ∈ ys, R a y)
  | [], acc, res, h => by
    cases h
    exact ⟨[], by simp, by simp, by simp⟩
  | a :: l, acc, res, h => by
    rw [List.foldlM_cons] at h
    cases hfa : f acc a with
    | error e =>
      rw [hfa] at h
      cases h
    | ok acc₁ =>
      rw [hfa] at h
      obtain ⟨y, hy, hry⟩ := hf acc a acc₁ hfa
      obtain ⟨ys, hys, himg, hpre⟩ := foldlM_append_images hf l acc₁ res h
      refine ⟨y :: ys, by rw [hys, hy, List.append_assoc, List.singleton_append], ?_, ?_⟩
      · intro z hz
        rcases List.mem_cons.1 hz with rfl | hz
        · exact ⟨a, List.mem_cons_self, hry⟩
        · obtain ⟨b, hb, hrb⟩ := himg z hz
          exact ⟨b, List.mem_cons_of_mem a hb, hrb⟩
      · intro b hb
        rcases List.mem_cons.1 hb with rfl | hb
        · exact ⟨y, List.mem_cons_self, hry⟩
        · obtain ⟨z, hz, hrz⟩ := hpre b hb
          exact ⟨z, List.mem_cons_of_mem y hz, hrz⟩

/-- **A fold whose steps keep a property** ends with it. -/
theorem foldlM_except_rec {β : Type} {motive : β → Prop} {f : β → α → Except ε β}
    (hstep : ∀ b, motive b → ∀ a b', f b a = .ok b' → motive b') :
    ∀ (l : List α) (b res : β), l.foldlM f b = .ok res → motive b → motive res
  | [], b, res, h, hb => by
    cases h
    exact hb
  | a :: l, b, res, h, hb => by
    rw [List.foldlM_cons] at h
    cases hfa : f b a with
    | error e =>
      rw [hfa] at h
      cases h
    | ok b₁ =>
      rw [hfa] at h
      exact foldlM_except_rec hstep l b₁ res h (hstep b hb a b₁ hfa)

end Folds

namespace Graph

variable {g h : Graph}

/-- A graph grows when its nodes are related one to one to the graph's, each
keeping the id and only dropping connections. -/
theorem grows_of_images {R : Node → Node → Prop}
    (hR : ∀ n m, R n m → m.id = n.id ∧ ∀ c ∈ m.connections, c ∈ n.connections)
    (himg : ∀ m ∈ h.nodes, ∃ n ∈ g.nodes, R n m) (hpre : ∀ n ∈ g.nodes, ∃ m ∈ h.nodes, R n m) :
    g.Grows h := by
  apply grows_of_nodes
  · intro n hn
    obtain ⟨m, hm, hr⟩ := hpre n hn
    exact ⟨m, hm, (hR n m hr).1⟩
  · intro m hm c hc
    obtain ⟨n, hn, hr⟩ := himg m hm
    exact .inl ⟨n, hn, (hR n m hr).1.symm, (hR n m hr).2 c hc⟩

end Graph

/-! ## Filling placeholders -/

namespace Node

variable {values : Value} {image : Option Value}

/-- Filling an input keeps its name, and its value or a literal. -/
theorem fillInput_ok {acc acc' : Inputs × List String × List String} {input : String × InputValue}
    (h : fillInput values image acc input = .ok acc') :
    ∃ q, acc'.1 = acc.1 ++ [q] ∧ q.1 = input.1 ∧ (q.2 = input.2 ∨ ∃ x, q.2 = .literal x) := by
  obtain ⟨name, v⟩ := input
  unfold fillInput at h
  dsimp only at h
  -- a filled text literal becomes a literal; anything else is kept
  split at h
  · split at h
    · cases h
      exact ⟨_, rfl, rfl, .inr ⟨_, rfl⟩⟩
    · cases hr : Template.fillText values _ with
      | error e =>
        rw [hr] at h
        cases h
      | ok r =>
        rw [hr] at h
        cases h
        exact ⟨_, rfl, rfl, .inr ⟨_, rfl⟩⟩
  · cases hr : Template.fillText values _ with
    | error e =>
      rw [hr] at h
      cases h
    | ok r =>
      rw [hr] at h
      cases h
      exact ⟨_, rfl, rfl, .inr ⟨_, rfl⟩⟩
  · cases h
    exact ⟨_, rfl, rfl, .inl rfl⟩

/-- **Filling a node keeps its id and only drops connections.** -/
theorem fill_ok {n m : Node} {filled unfilled : List String}
    (h : n.fill values image = .ok (m, filled, unfilled)) :
    m.id = n.id ∧ ∀ c ∈ m.connections, c ∈ n.connections := by
  unfold fill at h
  cases hf : n.inputs.foldlM (fillInput values image) ([], [], []) with
  | error e =>
    rw [hf] at h
    cases h
  | ok res =>
    rw [hf] at h
    cases h
    obtain ⟨qs, hqs, himg, -⟩ := foldlM_append_images (fun acc input acc' h => fillInput_ok h)
      n.inputs ([], [], []) res hf
    refine ⟨rfl, fun ⟨name, s, i⟩ hc => ?_⟩
    rw [mem_connections] at hc ⊢
    rw [hqs, List.nil_append] at hc
    obtain ⟨p, hp, hname, hv⟩ := himg _ hc
    rcases hv with hv | ⟨x, hx⟩
    · rw [← show p = (name, .connection s i) from Prod.ext hname.symm hv.symm]
      exact hp
    · cases hx

end Node

namespace Graph

variable {g : Graph}

/-- Filling a graph's nodes fills each node in turn. -/
theorem fillNode_ok {values : Value} {image : Option Value} {acc acc' : List Node × List String × List String}
    {n : Node} (h : fillNode values image acc n = .ok acc') :
    ∃ m, acc'.1 = acc.1 ++ [m] ∧ m.id = n.id ∧ ∀ c ∈ m.connections, c ∈ n.connections := by
  unfold fillNode at h
  cases hf : n.fill values image with
  | error e =>
    rw [hf] at h
    cases h
  | ok r =>
    obtain ⟨m, filled, unfilled⟩ := r
    rw [hf] at h
    cases h
    exact ⟨m, rfl, Node.fill_ok hf⟩

/-- **Filling placeholders grows a graph.** -/
theorem fill_grows {values : Value} {r : FillOutcome} (h : g.fill values = .ok r) : g.Grows r.graph := by
  unfold fill at h
  cases himage : Template.lookup values "image_filename" with
  | error e =>
    rw [himage] at h
    cases h
  | ok image =>
    simp only [himage, bind, Except.bind] at h
    cases hf : g.nodes.foldlM (fillNode values image) ([], [], []) with
    | error e =>
      rw [hf] at h
      cases h
    | ok res =>
      rw [hf] at h
      cases h
      obtain ⟨ms, hms, himg, hpre⟩ := foldlM_append_images (R := fun n m => m.id = n.id ∧
        ∀ c ∈ m.connections, c ∈ n.connections) (fun acc n acc' h => fillNode_ok h) g.nodes
        ([], [], []) res hf
      rw [List.nil_append] at hms
      refine grows_of_images (fun n m hr => hr) (fun m hm => himg m ?_) (fun n hn => ?_)
      · rw [← hms]
        exact hm
      · obtain ⟨m, hm, hr⟩ := hpre n hn
        exact ⟨m, by rw [hms]; exact hm, hr⟩

/-! ## Seeds and overrides -/

/-- Changing each node in place by a pass that keeps ids and only drops
connections grows a graph, node by node or one node by id. -/
theorem grows_modify {id : String} {f : Node → Node} (hid : ∀ n, (f n).id = n.id)
    (hc : ∀ n, ∀ c ∈ (f n).connections, c ∈ n.connections) : g.Grows (g.modify id f) := by
  unfold modify
  apply grows_map
  · intro n
    split
    · exact hid n
    · rfl
  · intro n c hcn
    split at hcn
    · exact hc n c hcn
    · exact hcn

end Graph

namespace Node

theorem connections_setInput_literal {n : Node} {name : String} {x : Value} {c : String × String × Int}
    (h : c ∈ (n.setInput name (.literal x)).connections) : c ∈ n.connections := by
  obtain ⟨name', s, i⟩ := c
  rcases mem_connections_setInput h with h | ⟨-, hv⟩
  · exact h
  · cases hv

/-- Steps that each leave a node or set one of its inputs to a literal keep
its id and only drop connections. -/
theorem foldl_literal_steps {β : Type} {F : Node → β → Node}
    (hF : ∀ m b, F m b = m ∨ ∃ name x, F m b = m.setInput name (.literal x)) :
    ∀ (l : List β) (n : Node), (l.foldl F n).id = n.id ∧ ∀ c ∈ (l.foldl F n).connections, c ∈ n.connections
  | [], n => ⟨rfl, fun _ hc => hc⟩
  | b :: l, n => by
    obtain ⟨hid, hc⟩ := foldl_literal_steps hF l (F n b)
    rw [List.foldl_cons]
    refine ⟨hid.trans ?_, fun c hcm => ?_⟩
    · rcases hF n b with hb | ⟨name, x, hb⟩
      · rw [hb]
      · rw [hb]
        rfl
    · have hcb := hc c hcm
      rcases hF n b with hb | ⟨name, x, hb⟩
      · rw [hb] at hcb
        exact hcb
      · rw [hb] at hcb
        exact connections_setInput_literal hcb

/-- Overriding literals keeps a node's id and only drops connections. -/
theorem overrideLiterals_steps (n : Node) (values : Fields) :
    (n.overrideLiterals values).id = n.id ∧
      ∀ c ∈ (n.overrideLiterals values).connections, c ∈ n.connections := by
  unfold overrideLiterals
  refine foldl_literal_steps (fun m b => ?_) values n
  obtain ⟨name, v⟩ := b
  dsimp only
  split
  · exact .inr ⟨name, v, rfl⟩
  · exact .inl rfl

end Node

namespace Graph

variable {g k : Graph}

/-- Folding over each node steps that leave it or set one of its inputs to a
literal grows a graph. -/
theorem grows_map_foldl_literal {β : Type} {F : Node → β → Node}
    (hF : ∀ m b, F m b = m ∨ ∃ name x, F m b = m.setInput name (.literal x)) (l : List β) :
    g.Grows { g with nodes := g.nodes.map fun n => l.foldl F n } :=
  grows_map (fun n => (Node.foldl_literal_steps hF l n).1) (fun n => (Node.foldl_literal_steps hF l n).2)

/-- **Writing a seed grows a graph.** -/
theorem reseed_grows (seed : Value) : g.Grows (g.reseed seed) := by
  unfold reseed
  -- each seed input that holds a literal takes the seed
  refine grows_map_foldl_literal (fun m name => ?_) _
  split
  · exact .inr ⟨name, seed, rfl⟩
  · exact .inl rfl

/-- **Applying overrides grows a graph.** -/
theorem override_grows {overrides : Value} (h : g.override overrides = .ok k) : g.Grows k := by
  unfold override at h
  split at h
  · cases h
    exact Grows.refl g
  · split at h
    · cases h
      refine List.foldlRecOn _ _ (Grows.refl g) fun acc hacc entry _ => ?_
      obtain ⟨id, attrs⟩ := entry
      dsimp only
      split
      · exact hacc.trans (grows_modify (fun n => (n.overrideLiterals_steps _).1)
          (fun n => (n.overrideLiterals_steps _).2))
      · exact hacc
    · cases h

end Graph

end NodeFlow
