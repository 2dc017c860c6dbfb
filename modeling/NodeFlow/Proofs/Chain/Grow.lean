import NodeFlow.Proofs.Graph.Passes
import NodeFlow.Chain.Inject
/-!
# Chains grow a graph

Placing a chain adds modifier nodes, each fed by the node before it and the
first by a node of the graph, then points inputs at the chain's last node.
Every connection it makes names a node of the result, so appending a chain
grows the graph and ends on one of its nodes (`appendChain_grows`), and so do
injecting a chain after the model source and extending one after a noise
path's modifier (`injectChain_grows`, `extendChain_grows`).
-/

namespace NodeFlow

open Json

namespace Graph

variable {g h : Graph} {s : Settings}

theorem get?_eq_some {id : String} {m : Node} (hm : g.get? id = some m) : m ∈ g.nodes ∧ m.id = id :=
  ⟨List.mem_of_find?_eq_some hm, by simpa using List.find?_some hm⟩

/-- **Appending a chain grows a graph** from one of its nodes, and ends on a
node of the result. -/
theorem appendChain_grows {c : Chain} {source last : String} (hsrc : g.contains source = true)
    (h' : appendChain s g c source = .ok (h, last)) : g.Grows h ∧ h.contains last = true := by
  unfold appendChain at h'
  cases hfirst : g.nextId s.injectedIdFloor with
  | error e =>
    rw [hfirst] at h'
    cases h'
  | ok first =>
    simp only [hfirst, bind, Except.bind] at h'
    split at h'
    · cases h'
    · rename_i res hfold
      cases h'
      -- each modifier is fed by a node already there, and is one itself
      refine foldlM_except_rec (motive := fun acc : Graph × String × Int =>
        g.Grows acc.1 ∧ acc.1.contains acc.2.1 = true) ?_ c _ _ hfold ⟨Grows.refl g, hsrc⟩
      rintro ⟨g₁, prev, next⟩ ⟨hgrow, hprev⟩ sel b' hstep
      dsimp only at hstep
      cases hid : integerText next with
      | error e =>
        rw [hid] at hstep
        cases hstep
      | ok id =>
        rw [hid] at hstep
        cases hstep
        have hmodel : (g₁.insert (modifierNode s id sel prev)).contains prev = true := by
          rw [contains_insert, hprev, Bool.true_or]
        refine ⟨hgrow.trans (grows_insert fun c hc => ?_), ?_⟩
        · rw [show (modifierNode s id sel prev).connections = [("model", prev, 0)] from rfl,
            List.mem_singleton] at hc
          rw [hc]
          exact hmodel
        · rw [contains_insert, beq_self_eq_true, Bool.or_true]

/-- The model source is a node of the graph. -/
theorem modelSource?_mem {src : Node} (h : modelSource? s g = some src) : src ∈ g.nodes := by
  obtain ⟨ct, -, hct⟩ := List.exists_of_findSome?_eq_some h
  exact (List.mem_filter.1 (List.mem_of_mem_head? hct)).1

/-- Pointing inputs at a node the graph has, one after another, grows it. -/
theorem grows_foldl_setInput {β : Type} {last : String} {F : Graph → β → Graph}
    (hF : ∀ acc b, ∃ id name, F acc b = acc.modify id fun n => n.setInput name (.connection last 0))
    (l : List β) (hlast : g.contains last = true) :
    g.Grows (l.foldl F g) ∧ (l.foldl F g).contains last = true := by
  refine List.foldlRecOn (motive := fun acc => g.Grows acc ∧ acc.contains last = true) _ _
    ⟨Grows.refl g, hlast⟩ fun acc ⟨hgrow, hacc⟩ b _ => ?_
  obtain ⟨id, name, hb⟩ := hF acc b
  rw [hb]
  refine ⟨hgrow.trans (grows_modify_setInput hacc), ?_⟩
  rw [contains_modify (f := fun n => n.setInput name (.connection last 0)) fun _ => rfl]
  exact hacc

/-- **Injecting a chain grows a graph.** -/
theorem injectChain_grows {c : Chain} (h' : g.injectChain? s c = .ok (some h)) : g.Grows h := by
  unfold injectChain? at h'
  split at h'
  · cases h'
  · split at h'
    · rename_i src hsrc
      dsimp only at h'
      split at h'
      · cases h'
      · cases happ : appendChain s g c src.id with
        | error e =>
          rw [happ] at h'
          cases h'
        | ok res =>
          obtain ⟨g', last⟩ := res
          rw [happ] at h'
          cases h'
          obtain ⟨hgrow, hlast⟩ := appendChain_grows (contains_of_mem (modelSource?_mem hsrc)) happ
          refine hgrow.trans (grows_foldl_setInput (fun acc b => ?_) _ hlast).1
          obtain ⟨id, name⟩ := b
          exact ⟨id, name, rfl⟩
    · cases h'

/-- A monadic search that finds something found it at some element. -/
theorem findSomeM?_except_some {α β ε : Type} {f : α → Except ε (Option β)} {b : β} :
    ∀ {l : List α}, l.findSomeM? f = .ok (some b) → ∃ a ∈ l, f a = .ok (some b)
  | [], h => by cases h
  | a :: l, h => by
    rw [List.findSomeM?_cons] at h
    cases hfa : f a with
    | error e =>
      rw [hfa] at h
      cases h
    | ok r =>
      rw [hfa] at h
      cases r with
      | some b' =>
        cases h
        exact ⟨a, List.mem_cons_self, hfa⟩
      | none =>
        obtain ⟨a', ha', hfa'⟩ := findSomeM?_except_some h
        exact ⟨a', List.mem_cons_of_mem a ha', hfa'⟩

/-- **Extending a noise path's chain grows a graph**, whatever classifies the
sampling nodes. -/
theorem extendChainBy_grows {c : Chain} {path : NoisePath} {classify : Graph → String → Outcome (List NoisePath)}
    (h' : g.extendChainBy? s c path classify = .ok (some h)) : g.Grows h := by
  unfold extendChainBy? at h'
  split at h'
  · cases h'
  · simp only [bind, Except.bind] at h'
    split at h'
    · cases h'
    · rename_i target hsearch
      rcases target with _ | ⟨samplingId, modifierId⟩
      · cases h'
      -- the modifier found is a node of the graph
      have hmod : g.contains modifierId = true := by
        obtain ⟨sampling, -, hf⟩ := findSomeM?_except_some hsearch
        unfold samplingTarget at hf
        split at hf
        · split at hf
          · rename_i m hm
            split at hf
            · cases hf
            · -- past the class check the classifier is asked; only a path it names is taken
              cases hp : classify g sampling.id with
              | error e =>
                rw [hp] at hf
                cases hf
              | ok paths =>
                rw [hp] at hf
                simp only [bind, Except.bind] at hf
                split at hf
                · cases hf
                  exact contains_of_mem (get?_eq_some hm).1
                · cases hf
          · cases hf
        · cases hf
      dsimp only at h'
      split at h'
      · cases h'
      · rename_i res happ
        cases h'
        obtain ⟨hgrow, hlast⟩ := appendChain_grows hmod happ
        exact hgrow.trans (grows_modify_setInput hlast)

theorem extendChain_grows {c : Chain} {path : NoisePath} {rule : NoisePathRule}
    (h' : g.extendChain? s c path rule = .ok (some h)) : g.Grows h :=
  extendChainBy_grows h'

end Graph

end NodeFlow
