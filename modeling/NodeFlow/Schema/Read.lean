import NodeFlow.Schema.Basic
import NodeFlow.Json.Reader
import NodeFlow.Json.Number
/-!
# Reading a schema document

A schema document maps each class type to its description: an `input` object
with `required` and `optional` sections of `name: [type, options]` entries, an
`output` list of types and an `output_name` list of names. An input type that is
a list of options, or the word `COMBO` with an `options` list, is the enum type.
Entries of the wrong shape are skipped; a document that is not an object is a
schema error.
-/

namespace NodeFlow

open Json

namespace Schema

/-- One `[type, options]` entry of an input section. -/
def readInput (name : String) (spec : Value) (required : Bool) : Outcome (Option InputDecl) :=
  match spec with
  | .arr (head :: rest) =>
    let opts : Fields := match rest with
      | .obj fs :: _ => fs
      | _ => []
    let get (k : String) : Value := (Fields.get? opts k).getD .null
    let build (type : String) (options : List Value) : InputDecl :=
      { name := name, type := type, required := required, default := get "default", min := get "min", max := get "max",
        step := get "step", options := options, multiline := (get "multiline").truthy,
        forceInput := (get "forceInput").truthy, tooltip := get "tooltip" }
    match head with
    | .arr options => .ok (some (build enumType options))
    | .str "COMBO" => do
      let given := get "options"
      let options ← if given.truthy then given.elements else .ok []
      return some (build enumType options)
    | .str type => .ok (some (build type []))
    | _ => .ok none
  | _ => .ok none

/-- The inputs of one section, in order. -/
def readSection (specs : Fields) (required : Bool) : Outcome (List InputDecl) :=
  specs.foldlM (fun acc (name, spec) => do
    match ← readInput name spec required with
    | some d => return acc ++ [d]
    | none => return acc) []

/-- What a document says of one class, if its description is an object. -/
def readNodeType (classType : String) (info : Value) : Outcome (Option NodeType) :=
  match info with
  | .obj fs => do
    let block := (Fields.get? fs "input").getD .null
    let readPart (key : String) (required : Bool) : Outcome (List InputDecl) :=
      match block.get? key with
      | some (.obj specs) => readSection specs required
      | _ => .ok []
    let firstPart ← readPart "required" true
    let secondPart ← readPart "optional" false
    let names : List Value := match Fields.get? fs "output_name" with
      | some (.arr ns) => ns
      | _ => []
    let outputs := match Fields.get? fs "output" with
      | some (.arr types) => types.zipIdx.map fun (raw, i) =>
        let type := match raw with
          | .str t => t
          | _ => enumType
        let name := match names[i]? with
          | some (.str n) => n
          | _ => type
        ({ name := name, type := type } : OutputDecl)
      | _ => []
    let nodeType : NodeType :=
      { classType := classType
        inputs := firstPart ++ secondPart
        outputs := outputs
        category := (Fields.get? fs "category").getD .null
        displayName := (Fields.get? fs "display_name").getD .null }
    return some nodeType
  | _ => .ok none

/-- A schema from a decoded document. -/
def ofDocument (doc : Value) : Outcome Schema :=
  match doc with
  | .obj fs => do
    let types ← fs.foldlM (fun acc (ct, info) => do
      match ← readNodeType ct info with
      | some t => return acc ++ [t]
      | none => return acc) []
    return ⟨types⟩
  | v => .error (.compiler (CompilerError.make .schema
      "Schema document must be an object keyed by class type" [("type", .str v.typeName)]))

/-- A schema from document text. -/
def ofText (text : String) : Outcome Schema :=
  match Value.decode text with
  | .ok doc => ofDocument doc
  | .error e => .error (Failure.ofDecode (fun e => .compiler (CompilerError.make .schema
      ("Schema document is not valid JSON: " ++ e.fault.text) []
      (some ⟨"JSONDecodeError", e.message text⟩))) e)

end Schema

/-!
## The schema snapshot holder

The server's node schema changes while the program runs. A `SchemaCache` holds
the current snapshot and a generation that counts the replacements, so a
reader that took a snapshot can tell whether it is still current. Loading a
document replaces the snapshot only when the document reads as a schema.
-/

/-- The current schema snapshot and how many times it was replaced. -/
structure SchemaCache where
  snapshot : Schema := Schema.empty
  generation : Nat := 0

namespace SchemaCache

/-- Install a new snapshot; returns the cache and the snapshot it held before. -/
def replace (c : SchemaCache) (s : Schema) : SchemaCache × Schema :=
  ({ snapshot := s, generation := c.generation + 1 }, c.snapshot)

/-- Read a schema document (an object, or its text) and install it. -/
def load (c : SchemaCache) (doc : Value) : Outcome (SchemaCache × Schema) := do
  let s ← match doc with
    | .str text => Schema.ofText text
    | v => Schema.ofDocument v
  return ((c.replace s).1, s)

/-- Install the empty schema. -/
def clear (c : SchemaCache) : SchemaCache := (c.replace Schema.empty).1

end SchemaCache

end NodeFlow
