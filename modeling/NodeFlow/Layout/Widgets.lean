import NodeFlow.Graph.Basic
/-!
# Widget values

The graph editor saves a node's widget values as a list in the order of the
class's widget inputs. After a `seed` or `noise_seed` value it may also save the
choice of its "control after generate" widget (`fixed`, `increment`,
`decrement` or `randomize`), which has no input of its own; an input named
`control_after_generate` or starting with `control_` is such a widget too.

`assignWidgets` walks the values and the widget inputs in step, skipping those
control entries, and sets every input whose value is not null. Some nodes save
their widgets as an object by input name instead (`assignNamedWidgets`).
-/

namespace NodeFlow

open Json

namespace Layout

/-- The values the control widget after a seed can take. -/
def controlValues : List String := ["fixed", "increment", "decrement", "randomize"]

/-- The inputs a control widget may follow. -/
def seedNames : List String := ["seed", "noise_seed"]

/-- A control widget's input name. -/
def isControlName (name : String) : Bool :=
  name == "control_after_generate" || name.startsWith "control_"

/-- Drop a control-widget value standing first. -/
def skipControl : List Value → List Value
  | .str s :: rest => if controlValues.contains s then rest else .str s :: rest
  | vs => vs

/-- Set inputs from widget values, in step with the widget inputs. -/
def assignWidgets : List InputDecl → List Value → Inputs → Inputs
  | [], _, ins => ins
  | _, [], ins => ins
  | d :: ds, v :: vs, ins =>
    if isControlName d.name then assignWidgets ds vs ins
    else
      let ins := match v with
        | .null => ins
        | v => Inputs.set ins d.name (.literal v)
      let vs := if seedNames.contains d.name then skipControl vs else vs
      assignWidgets ds vs ins

/-- Set inputs from widget values saved by name: a known widget input that is not
a control widget takes its value unless it is null. -/
def assignNamedWidgets (values : Fields) (defs : List InputDecl) (ins : Inputs) : Inputs :=
  values.foldl (fun acc (name, v) =>
    if defs.any (·.name == name) && !isControlName name then
      match v with
      | .null => acc
      | v => Inputs.set acc name (.literal v)
    else acc) ins

end Layout

end NodeFlow
