import NodeFlow.Layout.Widgets
import NodeFlow.Graph.Read
import NodeFlow.Json.Number
/-!
# Importing a layout document

The graph editor saves a workflow as a list of positioned nodes and a table of
links `[id, source, source slot, target, target slot, type]`. Importing it gives
the canonical graph:

* each node with a class type becomes a node (notes become notes, reroutes
  vanish); its widget values become literals by the schema's widget inputs,
  and each input slot with a link becomes a connection, overriding a literal of
  the same name;
* a link whose source is a reroute is followed upstream through the reroute's
  first input, at most `maxRerouteHops` links, never through a link twice;
* a connection whose source did not become a node is dropped;
* a group holds the nodes whose position lies in its box, and a group that
  holds none is dropped.

Numbers in the document may be integers, integral doubles or integer text.
A node without a schema entry loses its widget values with a warning.
-/

namespace NodeFlow

open Json

namespace Layout

/-- Class types of note nodes. -/
def noteTypes : List String := ["Note", "MarkdownNote", "workflow/note"]

/-- Class types of reroute nodes, which only pass a link through. -/
def rerouteTypes : List String := ["Reroute", "ReroutePrimitive"]

/-- The longest reroute chain followed. -/
def maxRerouteHops : Nat := 64

/-- A whole number written as an integer, an integral double or integer text
(one too long to read is none); booleans and anything else are not. -/
def asInt? : Value → Option Int
  | .int n => some n
  | .float x => x.toInt?
  | .str s => (Decimal.readInteger s).toOption
  | _ => none

/-- Read values as doubles one after another. The first that is no number
stops the reading with `none`; an integer too large for a double is an error. -/
def readDoubles : List Value → Outcome (Option (List Binary64))
  | [] => .ok (some [])
  | v :: vs => match v.toDouble with
    | .error .overflow => .error .overflow
    | .error _ => .ok none
    | .ok x => do return (← readDoubles vs).map (x :: ·)

/-- A pair of doubles written `[a, b]` or `{"0": a, "1": b}`; `none` when
either does not read as a number. -/
def asPair? (v : Value) : Outcome (Option (Binary64 × Binary64)) := do
  let items : List Value := match v with
    | .obj fs => [(Fields.get? fs "0").getD .null, (Fields.get? fs "1").getD .null]
    | .arr (a :: b :: _) => [a, b]
    | _ => []
  if items.isEmpty then return none
  match ← readDoubles items with
  | some [x, y] => return some (x, y)
  | _ => return none

/-- One row of the link table. -/
structure Link where
  id : Int
  source : Int
  sourceSlot : Int
  target : Int
  targetSlot : Int

/-- Read a link row, written as a list or as an object. -/
def Link.ofValue? (v : Value) : Option Link :=
  let fields : Option (List Value) := match v with
    | .arr items => if items.length < 6 then none else some (items.take 5)
    | .obj fs => some (["id", "origin_id", "origin_slot", "target_id", "target_slot"].map
        fun k => (Fields.get? fs k).getD .null)
    | _ => none
  match fields.map (·.map asInt?) with
  | some [some a, some b, some c, some d, some e] => some ⟨a, b, c, d, e⟩
  | _ => none

/-- An ordered map from whole numbers: a repeated key keeps its first place and
takes the last value. -/
abbrev IntMap (α : Type) := List (Int × α)

/-- Put a key. -/
def IntMap.put {α : Type} (m : IntMap α) (k : Int) (v : α) : IntMap α :=
  if m.any (·.1 == k) then m.map fun p => if p.1 == k then (k, v) else p else m ++ [(k, v)]

/-- Look a key up. -/
def IntMap.get? {α : Type} (m : IntMap α) (k : Int) : Option α := (m.find? (·.1 == k)).map (·.2)

/-- The link table by link id; rows that do not read, and id -1, are skipped. -/
def linkTable : Value → IntMap Link
  | .arr rows => rows.foldl (fun acc row => match Link.ofValue? row with
      | some l => if l.id == -1 then acc else IntMap.put acc l.id l
      | none => acc) []
  | _ => []

/-- What an editor document holds, read once. -/
structure Document where
  fields : Fields
  links : IntMap Link
  nodes : IntMap Fields

/-- The class type of a saved node, empty when it has none. -/
def nodeType (raw : Fields) : String :=
  match Fields.get? raw "type" with
  | some (.str t) => t
  | _ => ""

/-- The input slots of a saved node: the objects among its `inputs`. -/
def inputSlots (raw : Fields) : Outcome (List Fields) := do
  let v := (Fields.get? raw "inputs").getD .null
  let items ← if v.truthy then v.elements else .ok []
  return items.filterMap Value.fields?

/-- The link id of an input slot, -1 when it has none. -/
def slotLink (slot : Fields) : Int := (asInt? ((Fields.get? slot "link").getD .null)).getD (-1)

namespace Document

/-- Read the nodes with a usable id and the link table. -/
def ofFields (doc : Fields) : Outcome Document := do
  let raw := (Fields.get? doc "nodes").getD .null
  let items ← if raw.truthy then raw.elements else .ok []
  let nodes := items.foldl (fun acc item => match item with
    | .obj fs => match asInt? ((Fields.get? fs "id").getD .null) with
      | some id => if id == -1 then acc else IntMap.put acc id fs
      | none => acc
    | _ => acc) []
  return ⟨doc, linkTable ((Fields.get? doc "links").getD .null), nodes⟩

/-- Follow a link to the node and slot that produce it, passing through
reroutes; `none` when the chain breaks, loops or runs too long. -/
def resolveSource (d : Document) (linkId : Int) : Outcome (Option (Int × Int)) :=
  let rec go (fuel : Nat) (linkId : Int) (seen : List Int) : Outcome (Option (Int × Int)) :=
    match fuel with
    | 0 => .ok none
    | fuel + 1 =>
      match IntMap.get? d.links linkId with
      | none => .ok none
      | some link =>
        if seen.contains linkId then .ok none
        else match IntMap.get? d.nodes link.source with
          | none => .ok none
          | some src =>
            if !rerouteTypes.contains (nodeType src) then .ok (some (link.source, link.sourceSlot))
            else do
              let slots ← inputSlots src
              match slots with
              | first :: _ =>
                let up := slotLink first
                if up < 0 then return none else go fuel up (linkId :: seen)
              | [] => return none
  go maxRerouteHops linkId []

/-- A note node as a note. -/
def note (id : Int) (raw : Fields) : Note :=
  let title := match Fields.get? raw "title" with
    | some (.str t) => if t.isEmpty then "Note" else t
    | _ => "Note"
  let content := match Fields.get? raw "widgets_values" with
    | some (.arr (v :: _)) => match v with
      | .null => ""
      | v => v.display
    | _ => ""
  { id := .int id, title := title, content := content }

/-- A saved node as a graph node, with a warning when its widget values cannot
be mapped. -/
def node (d : Document) (schema : Schema) (id : Int) (type : String) (raw : Fields) :
    Outcome (Node × List String) := do
  let values := (Fields.get? raw "widgets_values").getD .null
  let decl := schema.find? type
  let (ins, warnings) : Inputs × List String := match decl with
    | some t => match values with
      | .arr vs => (assignWidgets t.widgetInputs vs [], [])
      | .obj fs => (assignNamedWidgets fs t.widgetInputs [], [])
      | _ => ([], [])
    | none =>
      if values.truthy then
        ([], ["Node \"" ++ type ++ "\" (#" ++ toString id ++ "): inputs could not be fully mapped"])
      else ([], [])
  let slots ← inputSlots raw
  let ins ← slots.foldlM (fun ins slot => do
    match Fields.get? slot "name" with
    | some (.str name) =>
      let link := slotLink slot
      if name.isEmpty || link < 0 then return ins
      match ← d.resolveSource link with
      | some (src, k) => return Inputs.set ins name (.connection (toString src) k)
      | none => return ins
    | _ => return ins) ins
  let title := match Fields.get? raw "title" with
    | some (.str t) => if t.isEmpty || t == type then none else some t
    | _ => none
  let mode := (asInt? ((Fields.get? raw "mode").getD .null)).getD modeActive
  let n : Node :=
    { id := toString id, classType := type, inputs := ins, title := title, mode := mode
      outputs := (decl.map (·.outputs)).getD [] }
  return (n, warnings)

/-- Whether a point lies in a box `[x, x + w] × [y, y + h]`. -/
def inBox (box : Binary64 × Binary64 × Binary64 × Binary64) (p : Binary64 × Binary64) : Bool :=
  let (gx, gy, gw, gh) := box
  let (x, y) := p
  let le (a b : Binary64) : Bool := a.toFloat ≤ b.toFloat
  le gx x && le x (Binary64.ofFloat (gx.toFloat + gw.toFloat)) &&
    le gy y && le y (Binary64.ofFloat (gy.toFloat + gh.toFloat))

/-- The first four numbers of a group's bounding list, if they all read. -/
def boundingBox (v : Value) : Outcome (Option (Binary64 × Binary64 × Binary64 × Binary64)) :=
  match v with
  | .arr (a :: b :: c :: e :: _) => do
    match ← readDoubles [a, b, c, e] with
    | some [a, b, c, e] => return some (a, b, c, e)
    | _ => return none
  | _ => .ok none

/-- The groups of the document that hold at least one positioned node. -/
def groups (d : Document) (positions : List (String × Binary64 × Binary64)) : Outcome (List Group) :=
  match Fields.get? d.fields "groups" with
  | some (.arr items) =>
    items.zipIdx.foldlM (fun acc (item, i) => match item with
      | .obj raw => do
        match ← boundingBox ((Fields.get? raw "bounding").getD .null) with
        | none => return acc
        | some box =>
          let members := positions.filterMap fun (id, p) => if inBox box p then some id else none
          if members.isEmpty then return acc
          let title := match Fields.get? raw "title" with
            | some (.str t) => if t.isEmpty then "Group" else t
            | _ => "Group"
          let gid : Value := match Fields.get? raw "id" with
            | some (.int n) => .int n
            | some (.bool b) => .bool b
            | some (.str s) => .str s
            | _ => .int (i + 1)
          return acc ++ [{ id := gid, title := title, members := members }]
      | _ => return acc) []
  | _ => .ok []

/-- Import the document: the canonical graph and the warnings. -/
def toGraph (d : Document) (schema : Schema) : Outcome (Graph × List String) := do
  let step (acc : Graph × List (String × Binary64 × Binary64) × List String) (entry : Int × Fields) :
      Outcome (Graph × List (String × Binary64 × Binary64) × List String) := do
    let (g, positions, warnings) := acc
    let (id, raw) := entry
    let type := nodeType raw
    if type.isEmpty || rerouteTypes.contains type then return acc
    if noteTypes.contains type then return ({ g with notes := g.notes ++ [note id raw] }, positions, warnings)
    let (n, ws) ← d.node schema id type raw
    let pos ← asPair? ((Fields.get? raw "pos").getD .null)
    let positions := match pos with
      | some p => positions ++ [(n.id, p)]
      | none => positions
    return (g.insert n, positions, warnings ++ ws)
  let (g, positions, warnings) ← d.nodes.foldlM step ({ wrapped := true }, [], [])
  let nodes := g.nodes.map fun n =>
    { n with inputs := n.inputs.filter fun (_, v) => match v with
      | .connection s _ => g.contains s
      | _ => true }
  let groups ← d.groups positions
  return ({ g with nodes := nodes, groups := groups }, warnings)

end Document

/-- A document in layout form keeps its nodes in a list. -/
def isLayout (doc : Fields) : Bool :=
  match Fields.get? doc "nodes" with
  | some (.arr _) => true
  | _ => false

/-- Import a layout document. -/
def importLayout (doc : Fields) (schema : Schema) : Outcome (Graph × List String) := do
  (← Document.ofFields doc).toGraph schema

end Layout

/-- Import a workflow source in either form: a layout document through the
layout importer, anything else as a canonical document. -/
def importWorkflow (src : Value) (schema : Schema) : Outcome (Graph × List String) := do
  let doc ← loadDocument src
  if Layout.isLayout doc then Layout.importLayout doc schema
  else return (← Graph.ofFields doc schema, [])

end NodeFlow
