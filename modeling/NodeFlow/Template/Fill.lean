import NodeFlow.Template.Placeholder
import NodeFlow.Graph.Basic
import NodeFlow.Json.Display
import NodeFlow.Error
/-!
# Filling a template

At submission the placeholders of a template's text literals are filled from a
map of values, which may name a value by its placeholder or by the field key
the placeholder lands on (`Template.lookup`). A literal that is one whole
placeholder takes the value itself, so numbers stay numbers; placeholders
inside longer text are replaced by the value's text, which a value holding an
integer of too many digits does not have (`Value.textBy`). Placeholders without a
value stay as they are and are reported. The values are asked for a name as
a membership test asks: an object by its names, a list by its items and a text
by its runs of characters; only an object can then give one.

Templates older than the image placeholder hold a fixed file name
(`defaultImageName`); a supplied image replaces it as well.
-/

namespace NodeFlow

open Json

namespace Template

/-- The file name written by image templates that predate the image placeholder. -/
def defaultImageName : String := "uploaded_image.png [input]"

/-- Names sorted and without repeats. -/
def sortedNames (names : List String) : List String :=
  (names.mergeSort Text.codeLE).eraseDups

/-- Whether a value holds a name, as asking for membership does: an object by
its member names, a list by its items, a text by its runs of characters; no
other value can be asked. -/
def holdsName (values : Value) (name : String) : Outcome Bool :=
  match values with
  | .obj fs => .ok (fs.any (·.1 == name))
  | .arr items => .ok (items.any fun v => v.str? == some name)
  | .str s => .ok (Text.occursIn name s)
  | v => .error (.notContainer v.typeName)

/-- The member of a value under a name: only an object is indexed by names. -/
def memberNamed (values : Value) (name : String) : Outcome Value :=
  match values with
  | .obj fs => .ok ((Fields.get? fs name).getD .null)
  | .arr _ => .error (.badIndex "list" "str")
  | .str _ => .error (.badIndex "str" "str")
  | v => .error (.notSubscriptable v.typeName)

/-- The value for a placeholder: by its own name, else by the field key it
lands on. A value that holds the name but is no object cannot give it. -/
def lookup (values : Value) (name : String) : Outcome (Option Value) := do
  if ← holdsName values name then return some (← memberNamed values name)
  match placeholderKeys.lookup name with
  | some key => if ← holdsName values key then return some (← memberNamed values key) else return none
  | none => return none

/-- What filling one text gave: the new value, the placeholders filled and the
placeholders left open. -/
structure TextFill where
  value : Value
  filled : List String
  unfilled : List String

/-- Fill the placeholders of one text. -/
def fillText (values : Value) (text : String) : Outcome TextFill := do
  match wholePlaceholder? text with
  | some name => match ← lookup values name with
    | some v => return ⟨v, [name], []⟩
    | none => return ⟨.str text, [], [name]⟩
  | none =>
    let (out, filled, unfilled) ← (pieces text).foldlM
      (fun (acc : String × List String × List String) p => do
        match p with
        | .plain t => return (acc.1 ++ t, acc.2)
        | .slot name => match ← lookup values name with
          | some v => return (acc.1 ++ (← v.textBy Value.display), acc.2.1 ++ [name], acc.2.2)
          | none => return (acc.1 ++ slotText name, acc.2.1, acc.2.2 ++ [name])) ("", [], [])
    return ⟨.str out, filled, unfilled⟩

end Template

/-- A filled template with the placeholders filled and left open (each sorted)
and a warning for every open one. -/
structure FillOutcome where
  graph : Graph
  filled : List String
  unfilled : List String
  warnings : List String

namespace Node

/-- One input of a node after filling, added to the inputs done so far with
the placeholders filled and left open: a text literal is filled, the image
placeholder alone by the supplied image when there is one; any other input is
kept as it is. -/
def fillInput (values : Value) (image : Option Value) (acc : Inputs × List String × List String)
    (input : String × InputValue) : Outcome (Inputs × List String × List String) := do
  let (name, v) := input
  match v, image with
  | .literal (.str text), some img =>
    if text == Template.defaultImageName then
      return (acc.1 ++ [(name, .literal img)], acc.2.1 ++ ["image_filename"], acc.2.2)
    else
      let r ← Template.fillText values text
      return (acc.1 ++ [(name, .literal r.value)], acc.2.1 ++ r.filled, acc.2.2 ++ r.unfilled)
  | .literal (.str text), none =>
    let r ← Template.fillText values text
    return (acc.1 ++ [(name, .literal r.value)], acc.2.1 ++ r.filled, acc.2.2 ++ r.unfilled)
  | _, _ => return (acc.1 ++ [(name, v)], acc.2)

/-- Fill the text literals of a node, `image` being the supplied image if
any; returns the node with the placeholders filled and left open. -/
def fill (values : Value) (image : Option Value) (n : Node) :
    Outcome (Node × List String × List String) := do
  let (inputs, filled, unfilled) ← n.inputs.foldlM (fillInput values image) ([], [], [])
  return ({ n with inputs := inputs }, filled, unfilled)

end Node

namespace Graph

/-- One node of a graph after filling, added to the nodes done so far with the
placeholders filled and left open. -/
def fillNode (values : Value) (image : Option Value) (acc : List Node × List String × List String)
    (n : Node) : Outcome (List Node × List String × List String) := do
  let (m, f, o) ← n.fill values image
  return (acc.1 ++ [m], acc.2.1 ++ f, acc.2.2 ++ o)

/-- Fill every text literal of a graph from `values`, usually an object of
values by name. The supplied image is looked up first, before any literal. -/
def fill (g : Graph) (values : Value) : Outcome FillOutcome := do
  let image ← Template.lookup values "image_filename"
  let (nodes, filled, unfilled) ← g.nodes.foldlM (fillNode values image) ([], [], [])
  let unfilled := Template.sortedNames unfilled
  return { graph := { g with nodes := nodes }
           filled := Template.sortedNames filled
           unfilled := unfilled
           warnings := unfilled.map fun name =>
             "No value supplied for placeholder " ++ Template.slotText name }

/-- The placeholder names used in the text literals of a graph, sorted. -/
def placeholders (g : Graph) : List String :=
  Template.sortedNames (g.nodes.flatMap fun n => n.inputs.flatMap fun (_, v) => match v with
    | .literal (.str text) => Template.placeholderNames text
    | _ => [])

end Graph

end NodeFlow
