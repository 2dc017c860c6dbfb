import NodeFlow.Layout.Widgets
/-!
# Widget values in step with the widget inputs

The editor saves one value per widget input, in declaration order, and right
after the value of a seed input the choice of that input's control widget.
`assignWidgets` reads the values in step with the widget inputs and drops a
control choice that follows a seed value. What it computes is the plain pairing
of inputs and values (`giveWidgets`): each value that is not null is set on its
input, a control widget's value is set nowhere, and a later input of the same
name overrides an earlier one.

* On the list the editor saves the pairing holds whatever control choices the
  list carries (`ControlSaved`).
* On the values alone it holds as long as no value right after a seed value
  reads as a control choice (`SeedsUnmarked`). A value that does is taken for
  the control choice, and every later value lands on the input after its own
  (`assignWidgets_token_valued_widget`).
-/

namespace NodeFlow

open Json

namespace Layout

/-- A value the control widget after a seed can hold. -/
def IsControlChoice : Value → Prop
  | .str s => s ∈ controlValues
  | _ => False

/-- One widget value set on its input: the value of a control widget, and a
null value, set nothing. -/
def giveWidget (ins : Inputs) (dv : InputDecl × Value) : Inputs :=
  if isControlName dv.1.name then ins
  else match dv.2 with
    | .null => ins
    | v => Inputs.set ins dv.1.name (.literal v)

/-- Each widget input given its own value, in order. -/
def giveWidgets (ds : List InputDecl) (vs : List Value) (ins : Inputs) : Inputs :=
  (ds.zip vs).foldl giveWidget ins

/-- `ws` is what the editor saves for the widget inputs `ds` holding `vs`:
every value, and after the value of a seed input one control choice. -/
inductive ControlSaved : List InputDecl → List Value → List Value → Prop
  | nil : ControlSaved [] [] []
  | plain {d : InputDecl} {v : Value} {ds : List InputDecl} {vs ws : List Value}
      (hd : d.name ∉ seedNames) (h : ControlSaved ds vs ws) :
      ControlSaved (d :: ds) (v :: vs) (v :: ws)
  | seed {d : InputDecl} {v : Value} {ds : List InputDecl} {vs ws : List Value} {t : String}
      (hd : d.name ∈ seedNames) (ht : t ∈ controlValues) (h : ControlSaved ds vs ws) :
      ControlSaved (d :: ds) (v :: vs) (v :: .str t :: ws)

/-- No value that follows the value of a seed input reads as a control choice. -/
def SeedsUnmarked : List InputDecl → List Value → Prop
  | d :: ds, _ :: vs => (d.name ∈ seedNames → ∀ w ∈ vs.head?, ¬ IsControlChoice w) ∧ SeedsUnmarked ds vs
  | _, _ => True

@[simp] theorem giveWidgets_cons (d : InputDecl) (ds : List InputDecl) (v : Value) (vs : List Value)
    (ins : Inputs) : giveWidgets (d :: ds) (v :: vs) ins = giveWidgets ds vs (giveWidget ins (d, v)) :=
  rfl

theorem isControlName_of_seed {name : String} (h : name ∈ seedNames) : isControlName name = false := by
  simp only [seedNames, List.mem_cons, List.not_mem_nil, or_false] at h
  rcases h with rfl | rfl <;> simp [isControlName]

theorem skipControl_choice {t : String} (ht : t ∈ controlValues) (ws : List Value) :
    skipControl (.str t :: ws) = ws := by
  simp [skipControl, ht]

theorem skipControl_of_not_choice {vs : List Value} (h : ∀ w ∈ vs.head?, ¬ IsControlChoice w) :
    skipControl vs = vs := by
  match vs, h with
  | .str s :: rest, h =>
    have hs : s ∉ controlValues := h (.str s) rfl
    simp [skipControl, hs]
  | [], _ => rfl
  | .null :: _, _ | .bool _ :: _, _ | .int _ :: _, _ | .float _ :: _, _
  | .arr _ :: _, _ | .obj _ :: _, _ => rfl

/-- **One step of the walk.** The first input takes the first value as
`giveWidget` gives it; after a seed input the walk goes on past a control
choice. A control widget is never a seed input, so its value is passed over
whatever follows. -/
theorem assignWidgets_cons (d : InputDecl) (ds : List InputDecl) (v : Value) (vs : List Value)
    (ins : Inputs) :
    assignWidgets (d :: ds) (v :: vs) ins =
      assignWidgets ds (if d.name ∈ seedNames then skipControl vs else vs) (giveWidget ins (d, v)) := by
  by_cases hc : isControlName d.name
  · have hs : d.name ∉ seedNames := fun h => by simp [isControlName_of_seed h] at hc
    simp [assignWidgets, giveWidget, hc, hs]
  · rw [assignWidgets.eq_def]
    dsimp only
    rw [if_neg hc, giveWidget, if_neg hc]
    -- the two matches on the value are the same case split, so they agree
    -- once the value is split; the seed test is list membership
    by_cases hs : d.name ∈ seedNames
    · have hcontains : seedNames.contains d.name = true := List.elem_eq_true_of_mem hs
      cases v <;> dsimp only <;> rw [if_pos hcontains, if_pos hs]
    · have hcontains : seedNames.contains d.name = false := by simpa using hs
      have hfalse : ¬ seedNames.contains d.name = true := by
        rw [hcontains]
        exact Bool.false_ne_true
      cases v <;> dsimp only <;> rw [if_neg hfalse, if_neg hs]

/-- On the list the editor saves, the walk gives each widget input its own value. -/
theorem assignWidgets_of_controlSaved {ds : List InputDecl} {vs ws : List Value}
    (h : ControlSaved ds vs ws) (ins : Inputs) : assignWidgets ds ws ins = giveWidgets ds vs ins := by
  induction h generalizing ins with
  | nil => rfl
  | plain hd _ ih => rw [assignWidgets_cons, if_neg hd, ih, giveWidgets_cons]
  | seed hd ht _ ih => rw [assignWidgets_cons, if_pos hd, skipControl_choice ht, ih, giveWidgets_cons]

/-- On the values alone, with no control choice after a seed value, the walk
gives each widget input its own value. -/
theorem assignWidgets_of_seedsUnmarked :
    ∀ {ds : List InputDecl} {vs : List Value}, SeedsUnmarked ds vs →
      ∀ ins, assignWidgets ds vs ins = giveWidgets ds vs ins
  | [], _, _, _ => rfl
  | _ :: _, [], _, _ => rfl
  | d :: ds, v :: vs, ⟨hseed, hrest⟩, ins => by
    have hskip : (if d.name ∈ seedNames then skipControl vs else vs) = vs := by
      split
      · exact skipControl_of_not_choice (hseed ‹_›)
      · rfl
    rw [assignWidgets_cons, hskip, giveWidgets_cons]
    exact assignWidgets_of_seedsUnmarked hrest _

/-- **Widget values land on their own inputs.** Reading widget values in step
with the widget inputs sets each input that is no control widget to its own
value unless that value is null, a later input of the same name overriding an
earlier one, and sets nothing else. This holds for every list the editor saves
with a control choice after each seed value, and for the values alone when no
value right after a seed value reads as a control choice. -/
theorem assignWidgets_lockstep (ds : List InputDecl) (vs : List Value) (ins : Inputs) :
    (∀ ws, ControlSaved ds vs ws → assignWidgets ds ws ins = giveWidgets ds vs ins) ∧
      (SeedsUnmarked ds vs → assignWidgets ds vs ins = giveWidgets ds vs ins) :=
  ⟨fun _ h => assignWidgets_of_controlSaved h ins, fun h => assignWidgets_of_seedsUnmarked h ins⟩

/-- The widget inputs of a sampler: a seed, the step count and the sampler's name. -/
def samplerWidgets : List InputDecl :=
  [{ name := "seed", type := "INT" }, { name := "steps", type := "INT" },
    { name := "sampler_name", type := "COMBO" }]

/-- A sampler's widget values, saved with and without the seed's control choice,
land on the same inputs. -/
theorem assignWidgets_lockstep_sampler :
    ControlSaved samplerWidgets [.int 42, .int 20, .str "euler"]
        [.int 42, .str "randomize", .int 20, .str "euler"] ∧
      SeedsUnmarked samplerWidgets [.int 42, .int 20, .str "euler"] ∧
      assignWidgets samplerWidgets [.int 42, .str "randomize", .int 20, .str "euler"] [] =
        giveWidgets samplerWidgets [.int 42, .int 20, .str "euler"] [] ∧
      assignWidgets samplerWidgets [.int 42, .int 20, .str "euler"] [] =
        giveWidgets samplerWidgets [.int 42, .int 20, .str "euler"] [] := by
  have hsaved : ControlSaved samplerWidgets [.int 42, .int 20, .str "euler"]
      [.int 42, .str "randomize", .int 20, .str "euler"] :=
    .seed (by simp [seedNames]) (by simp [controlValues])
      (.plain (by simp [seedNames]) (.plain (by simp [seedNames]) .nil))
  have hunmarked : SeedsUnmarked samplerWidgets [.int 42, .int 20, .str "euler"] := by
    simp [SeedsUnmarked, samplerWidgets, seedNames, IsControlChoice]
  exact ⟨hsaved, hunmarked, (assignWidgets_lockstep _ _ []).1 _ hsaved,
    (assignWidgets_lockstep _ _ []).2 hunmarked⟩

/-- A widget whose value after a seed reads as a control choice loses it: with a
noise seed of 5 followed by a mode of `fixed`, the mode is taken for the seed's
control choice and set nowhere. -/
theorem assignWidgets_token_valued_widget :
    assignWidgets [{ name := "noise_seed", type := "INT" }, { name := "mode", type := "COMBO" }]
        [.int 5, .str "fixed"] [] ≠
      giveWidgets [{ name := "noise_seed", type := "INT" }, { name := "mode", type := "COMBO" }]
        [.int 5, .str "fixed"] [] := by
  intro h
  have hlen := congrArg List.length h
  simp [assignWidgets, giveWidgets, giveWidget, seedNames, controlValues, skipControl,
    isControlName, Inputs.set, Inputs.has] at hlen

end Layout

end NodeFlow
