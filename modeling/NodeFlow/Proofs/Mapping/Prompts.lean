import NodeFlow.Mapping.Candidate
/-!
# How the prompt candidates are ordered

The prompt encoders of a graph (`Graph.promptEncoders`) are sorted into the
candidates of the two prompts in one pass. An encoder that the conditioning
trace places is put in front of its prompt's list, and one the trace leaves
open is put at the back of the list, or of both lists, that its title admits
(`Graph.titleAdmits`). Putting in front reverses: the encoders traced to a
prompt come first, the last one traced first, and after them come the
untraced encoders its title admits, in encoder order
(`promptCandidates_split`). Every encoder lands on at least one prompt.
-/

namespace NodeFlow

namespace Polarity

/-- The part of a pair that belongs to a polarity. -/
def pick {α : Type} (p : Polarity) (pair : α × α) : α :=
  match p with
  | .positive => pair.1
  | .negative => pair.2

end Polarity

namespace Graph

/-- Whether the title of an encoder that the trace leaves open puts it on the
prompt of polarity `p`, read in lower case: one that names `positive` goes to
the positive prompt only, one that names `negative` and not `positive` to the
negative prompt only, and one that names neither to both. -/
def titleAdmits (p : Polarity) (title : String) : Bool :=
  match p with
  | .positive => Text.occursIn "positive" (Text.toLower title) || !Text.occursIn "negative" (Text.toLower title)
  | .negative => !Text.occursIn "positive" (Text.toLower title)

/-- The candidate of an encoder: its text input. -/
def encoderCandidate (e : Node × String) : Candidate := Candidate.ofInput e.1 e.2

/-- Whether the trace places an encoder on the prompt of polarity `p`. -/
def tracedTo (g : Graph) (p : Polarity) (e : Node × String) : Bool := g.tracePolarity e.1.id == some p

/-- Whether the trace leaves an encoder open and its title puts it on the
prompt of polarity `p`. -/
def titledTo (g : Graph) (p : Polarity) (e : Node × String) : Bool :=
  g.tracePolarity e.1.id == none && titleAdmits p e.1.displayTitle

/-- The candidates of the prompt of polarity `p`: the encoders traced to it,
the last one first, then the open encoders whose title admits it, in encoder
order. -/
def promptList (g : Graph) (schema : Schema) (p : Polarity) : List Candidate :=
  ((g.promptEncoders schema).filter (g.tracedTo p)).reverse.map encoderCandidate ++
    ((g.promptEncoders schema).filter (g.titledTo p)).map encoderCandidate

/-- One step of the pass of `promptCandidates`, written out by name. -/
def promptStep (g : Graph) : List Candidate × List Candidate → Node × String → List Candidate × List Candidate :=
  fun acc (n, key) =>
    let c := Candidate.ofInput n key
    match g.tracePolarity n.id with
    | some .positive => (c :: acc.1, acc.2)
    | some .negative => (acc.1, c :: acc.2)
    | none =>
      let title := Text.toLower n.displayTitle
      if Text.occursIn "positive" title then (acc.1 ++ [c], acc.2)
      else if Text.occursIn "negative" title then (acc.1, acc.2 ++ [c])
      else (acc.1 ++ [c], acc.2 ++ [c])

variable {g : Graph} {schema : Schema}

theorem promptCandidates_eq_foldl : g.promptCandidates schema = (g.promptEncoders schema).foldl g.promptStep ([], []) :=
  rfl

theorem titledTo_of_tracedTo {p : Polarity} {e : Node × String} (h : g.tracedTo p e = true) : g.titledTo p e = false := by
  simp only [tracedTo, beq_iff_eq] at h
  simp [titledTo, h]

/-- **One step on one prompt's list**: a traced encoder goes in front, an
open one its title admits at the back. -/
theorem pick_promptStep (p : Polarity) (acc : List Candidate × List Candidate) (e : Node × String) :
    p.pick (g.promptStep acc e) =
      if g.tracedTo p e then encoderCandidate e :: p.pick acc
      else if g.titledTo p e then p.pick acc ++ [encoderCandidate e] else p.pick acc := by
  obtain ⟨n, key⟩ := e
  simp only [promptStep, tracedTo, titledTo, encoderCandidate]
  split
  · -- traced to the positive prompt
    rename_i htr
    cases p <;> simp [htr, Polarity.pick]
  · -- traced to the negative prompt
    rename_i htr
    cases p <;> simp [htr, Polarity.pick]
  · -- left open: the encoder goes by its title
    rename_i htr
    by_cases hpos : Text.occursIn "positive" (Text.toLower n.displayTitle) = true
    · cases p <;> simp [htr, hpos, titleAdmits, Polarity.pick]
    · by_cases hneg : Text.occursIn "negative" (Text.toLower n.displayTitle) = true <;>
        cases p <;> simp [htr, hpos, hneg, titleAdmits, Polarity.pick]

/-- **The whole pass on one prompt's list**: the traced encoders in front,
last first, then the open ones the title admits, in order. -/
theorem pick_foldl_promptStep (p : Polarity) (es : List (Node × String)) (acc : List Candidate × List Candidate) :
    p.pick (es.foldl g.promptStep acc) =
      (es.filter (g.tracedTo p)).reverse.map encoderCandidate ++ p.pick acc ++
        (es.filter (g.titledTo p)).map encoderCandidate := by
  induction es generalizing acc with
  | nil => simp
  | cons e es ih =>
    rw [List.foldl_cons, ih, pick_promptStep]
    by_cases htr : g.tracedTo p e = true
    · simp [htr, titledTo_of_tracedTo htr]
    · by_cases hti : g.titledTo p e = true <;> simp [htr, hti]

/-- The candidates of each prompt are its `promptList`. -/
theorem promptCandidates_eq : g.promptCandidates schema = (g.promptList schema .positive, g.promptList schema .negative) := by
  have hpick : ∀ p : Polarity, p.pick (g.promptCandidates schema) = g.promptList schema p := by
    intro p
    rw [promptCandidates_eq_foldl, pick_foldl_promptStep]
    cases p <;> simp [promptList, Polarity.pick]
  exact Prod.ext (hpick .positive) (hpick .negative)

/-- Every encoder goes to some prompt: by its trace, or else by its title,
which admits the negative prompt whenever it does not name `positive`. -/
theorem placed_somewhere (e : Node × String) : ∃ p, g.tracedTo p e = true ∨ g.titledTo p e = true := by
  cases htr : g.tracePolarity e.1.id with
  | some q => exact ⟨q, .inl (by simp [tracedTo, htr])⟩
  | none =>
    by_cases hpos : Text.occursIn "positive" (Text.toLower e.1.displayTitle) = true
    · exact ⟨.positive, .inr (by simp [titledTo, htr, titleAdmits, hpos])⟩
    · exact ⟨.negative, .inr (by simp [titledTo, htr, titleAdmits, hpos])⟩

theorem mem_promptList {p : Polarity} {e : Node × String} (he : e ∈ g.promptEncoders schema)
    (h : g.tracedTo p e = true ∨ g.titledTo p e = true) : encoderCandidate e ∈ g.promptList schema p := by
  unfold promptList
  rcases h with h | h
  · exact List.mem_append_left _ (List.mem_map_of_mem (List.mem_reverse.2 (List.mem_filter.2 ⟨he, h⟩)))
  · exact List.mem_append_right _ (List.mem_map_of_mem (List.mem_filter.2 ⟨he, h⟩))

/-- **The prompt candidates, in full.** The candidates of each prompt are the
encoders the trace places on it, the last of them first, followed by the
encoders the trace leaves open whose title admits the prompt, in encoder
order; and every encoder is a candidate of at least one prompt. -/
theorem promptCandidates_split (g : Graph) (schema : Schema) :
    g.promptCandidates schema = (g.promptList schema .positive, g.promptList schema .negative) ∧
      ∀ e ∈ g.promptEncoders schema,
        encoderCandidate e ∈ (g.promptCandidates schema).1 ∨ encoderCandidate e ∈ (g.promptCandidates schema).2 := by
  refine ⟨promptCandidates_eq, fun e he => ?_⟩
  rw [promptCandidates_eq]
  obtain ⟨p, hp⟩ := g.placed_somewhere e
  cases p with
  | positive => exact .inl (mem_promptList he hp)
  | negative => exact .inr (mem_promptList he hp)

/-- Two encoders, each feeding the positive conditioning of its own sampler. -/
def twoPositiveGraph : Graph :=
  { nodes := [{ id := "1", classType := "CLIPTextEncode", inputs := [("text", .literal (.str "a cat"))] },
      { id := "2", classType := "CLIPTextEncode", inputs := [("text", .literal (.str "a dog"))] },
      { id := "3", classType := "KSampler", inputs := [("positive", .connection "1" 0)] },
      { id := "4", classType := "KSampler", inputs := [("positive", .connection "2" 0)] }] }

/-- **Traced encoders come last first.** Both encoders of `twoPositiveGraph`
are traced to the positive prompt, in node order `1`, `2`, and the positive
candidates list them as `2`, `1`. -/
theorem promptCandidates_traced_last_first :
    (twoPositiveGraph.promptEncoders Schema.empty).map (·.1.id) = ["1", "2"] ∧
      (twoPositiveGraph.promptEncoders Schema.empty).map (twoPositiveGraph.tracePolarity ·.1.id) =
        [some .positive, some .positive] ∧
      (twoPositiveGraph.promptCandidates Schema.empty).1.map (·.nodeId) = ["2", "1"] := by
  decide +kernel

end Graph

end NodeFlow
