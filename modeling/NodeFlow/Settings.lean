import NodeFlow.Error
import NodeFlow.Decimal.Lenient
import NodeFlow.Json.Reader
import NodeFlow.Json.Writer
import NodeFlow.Text.CaseMap
/-!
# Compiler settings

The tuning of the compiler passes. Every setting has a default; overrides arrive
as named texts, the way an environment carries them:

* a name is uppercased and then lowercased, fully; a later override of a name
  takes its text and keeps its place, and an empty text is dropped before the
  names are lowered;
* a name splits at every `__` into a path, and the texts are put at their paths
  of a tree of objects. A step into a member that is not an object drops the
  text. Only the list setting, given by its own name, is read as JSON, and a
  text that is no JSON there fails the whole reading;
* the tree is then checked as the settings record: an integer or double
  setting reads its text leniently, a text setting takes it as it is, the list
  setting must hold texts, and an object where a setting expects a scalar or a
  list is of the wrong type. Any other name is an extra member. Issues of the
  settings come first, in their order, then the extra members.

An environment holds bytes: a full name and a text are written as UTF-8, the
halves that carry a byte as that byte, and read back (`Text.reencoded`); one
holding another half cannot be written. A name holding `=`, or a name or text
holding a NUL character, cannot be put in an environment at all. A text that
still holds a half after the round trip is a text setting as it is, but no
number; a member name that holds one fails the whole group.
-/

namespace NodeFlow

open Json

/-- The compiler's tuning. -/
structure Settings where
  /-- Hops followed through consecutive bypassed nodes before giving up. -/
  bypassMaxDepth : Int := 10
  /-- Added node ids start at this value at least. -/
  injectedIdFloor : Int := 100
  modifierClassType : String := "LoraLoaderModelOnly"
  modelSourceClassTypes : List String := ["CheckpointLoaderSimple", "UNETLoader"]
  samplingClassType : String := "ModelSamplingSD3"
  advancedSamplerClassType : String := "KSamplerAdvanced"
  maxChainLength : Int := 5
  minStrength : Binary64 := ⟨0⟩
  maxStrength : Binary64 := ⟨0x4000000000000000⟩
  defaultStrength : Binary64 := ⟨0x3FF0000000000000⟩

namespace Settings

/-- The text an override value carries: a text as it is, anything else as its
JSON text. -/
def overrideText : Value → String
  | .str s => s
  | v => v.render Layout.inline

/-- The environment variable names of the settings begin with this. -/
def variablePrefix : String := "COMFY_COMPILER_COMPILER__"

/-- The group the settings form in the whole configuration. -/
def groupName : String := "compiler"

/-- The source the settings are read from, as failures name it. -/
def sourceName : String := "EnvSettingsSource"

/-- The name of the record the settings are checked as. -/
def recordName : String := "Settings"

/-- The name of the setting read as JSON. -/
def listSetting : String := "model_source_class_types"

/-- The names of the settings, in order. -/
def names : List String :=
  ["bypass_max_depth", "injected_id_floor", "modifier_class_type", listSetting,
    "sampling_class_type", "advanced_sampler_class_type", "max_chain_length", "min_strength",
    "max_strength", "default_strength"]

/-- Check that an override can be put in an environment. -/
def checkEntry (name text : String) : Outcome Unit :=
  if (variablePrefix ++ name).contains '\x00' || text.contains '\x00' then
    .error (.plain "embedded null byte")
  else if name.contains '=' then .error (.plain "illegal environment variable name")
  else .ok ()

/-- An override put in the environment and read back: its name (after the
prefix) and its text as the environment gives them again. The full name is
written first, then the text, and then the entry is checked. -/
def putEntry (name text : String) : Outcome (String × String) := do
  if let some why := Text.utf8Failure? (variablePrefix ++ name) true then
    throw (.unencodable why)
  let name ← (Text.reencoded name).mapError Failure.unencodable
  let back ← (Text.reencoded text).mapError Failure.unencodable
  checkEntry name back
  return (name, back)

/-- The environment entries the overrides make, in order: names uppercased,
put in the environment and read back (`putEntry`), and then lowercased; a
repeated name keeps its first place and its last text, and empty texts are
dropped before the names are lowered. -/
def entries (overrides : Fields) : Outcome (List (String × String)) := do
  let upper ← overrides.foldlM (fun (acc : Fields) (k, v) => do
    let (name, text) ← putEntry (Text.toUpper k) (overrideText v)
    return Fields.insert acc name (.str text)) []
  let kept := upper.filter fun (_, v) => v.str? != some ""
  let lowered := kept.foldl (fun (acc : Fields) (k, v) => Fields.insert acc (Text.toLower k) v) []
  return lowered.map fun (k, v) => (k, (v.str?).getD "")

/-- A name split at every `__`, from the left. -/
def splitPath : List Char → List Char → List String
  | '_' :: '_' :: rest, cur => String.ofList cur.reverse :: splitPath rest []
  | c :: rest, cur => splitPath rest (c :: cur)
  | [], cur => [String.ofList cur.reverse]

/-- Put a value at a path of a tree of objects: each step goes into the member
of its name, made an empty object when missing; a member that is not an object
ends the walk and the value is dropped. -/
def putPath : List String → Value → Value → Value
  | [], _, tree => tree
  | [last], v, .obj fs => .obj (Fields.insert fs last v)
  | key :: rest, v, .obj fs =>
    .obj (Fields.insert fs key (putPath rest v ((Fields.get? fs key).getD (.obj []))))
  | _ :: _, _, tree => tree

/-- The tree the entries build; the list setting's text is read as JSON. -/
def tree (es : List (String × String)) : Outcome Value :=
  es.foldlM (fun t (name, text) => do
    let path := splitPath name.toList []
    let v ← if path == [listSetting] then
        (Value.decode text).mapError fun _ => Failure.settingsSource groupName sourceName
      else pure (.str text)
    return putPath path v t) (.obj [])

/-- Read an integer setting. -/
def readInt : Value → Except IssueKind Int
  | .str t => if Text.hasSurrogate t then .error .stringUnicode else match Decimal.lenientInt t with
    | .value n => .ok n
    | .tooLong _ => .error .intParsingSize
    | .invalid => .error .intParsing
  | _ => .error .intType

/-- Read a double setting. -/
def readFloat : Value → Except IssueKind Binary64
  | .str t => if Text.hasSurrogate t then .error .stringUnicode else match Decimal.lenientDouble? t with
    | some x => .ok x
    | none => .error .floatParsing
  | _ => .error .floatType

/-- Read a text setting. -/
def readText : Value → Except IssueKind String
  | .str t => .ok t
  | _ => .error .stringType

/-- Read the list setting: a list of texts. -/
def readTexts : Value → Except (List Issue) (List String)
  | .arr items =>
    let issues := items.zipIdx.filterMap fun (v, i) => match readText v with
      | .ok _ => none
      | .error k => some (⟨[groupName, listSetting, toString i], k, v⟩ : Issue)
    if issues.isEmpty then .ok (items.filterMap Value.str?) else .error issues
  | v => .error [⟨[groupName, listSetting], .listType, v⟩]

/-- Apply one member of the tree to the settings read so far, collecting issues. -/
def applyOne (acc : Settings × List Issue) (name : String) (v : Value) : Settings × List Issue :=
  let (s, issues) := acc
  let with_ {α : Type} (r : Except IssueKind α) (f : α → Settings) : Settings × List Issue :=
    match r with
    | .ok a => (f a, issues)
    | .error k => (s, issues ++ [⟨[groupName, name], k, v⟩])
  match name with
  | "bypass_max_depth" => with_ (readInt v) fun n => { s with bypassMaxDepth := n }
  | "injected_id_floor" => with_ (readInt v) fun n => { s with injectedIdFloor := n }
  | "modifier_class_type" => with_ (readText v) fun t => { s with modifierClassType := t }
  | "model_source_class_types" =>
    match readTexts v with
    | .ok ts => ({ s with modelSourceClassTypes := ts }, issues)
    | .error is => (s, issues ++ is)
  | "sampling_class_type" => with_ (readText v) fun t => { s with samplingClassType := t }
  | "advanced_sampler_class_type" => with_ (readText v) fun t => { s with advancedSamplerClassType := t }
  | "max_chain_length" => with_ (readInt v) fun n => { s with maxChainLength := n }
  | "min_strength" => with_ (readFloat v) fun x => { s with minStrength := x }
  | "max_strength" => with_ (readFloat v) fun x => { s with maxStrength := x }
  | "default_strength" => with_ (readFloat v) fun x => { s with defaultStrength := x }
  | _ => (s, issues)

/-- The settings a tree of members gives. A member name holding a surrogate
half fails the group alone. -/
def ofTree (fs : Fields) : Outcome Settings :=
  match fs.find? fun (k, _) => Text.hasSurrogate k with
  | some (k, _) => .error (.invalid recordName [⟨[groupName], .stringUnicode, .str k⟩])
  | none =>
    let (s, issues) := names.foldl (fun acc name =>
      match Fields.get? fs name with
      | some v => applyOne acc name v
      | none => acc) ({}, [])
    let extra := fs.filterMap fun (k, v) =>
      if names.contains k then none else some (⟨[groupName, k], .extraForbidden, v⟩ : Issue)
    if issues.isEmpty && extra.isEmpty then .ok s else .error (.invalid recordName (issues ++ extra))

/-- The settings with overrides applied. -/
def ofOverrides (overrides : Fields) : Outcome Settings := do
  match ← tree (← entries overrides) with
  | .obj fs => ofTree fs
  | _ => return {}

/-- The settings as a record, with the logging level in force. -/
def describe (s : Settings) (logLevel : String) : Value :=
  .obj [("version", .str "1.0.0"),
    ("logging", .obj [("level", .str logLevel), ("json_output", .bool false)]),
    ("compiler", .obj [("bypass_max_depth", .int s.bypassMaxDepth),
      ("injected_id_floor", .int s.injectedIdFloor),
      ("modifier_class_type", .str s.modifierClassType),
      ("model_source_class_types", .arr (s.modelSourceClassTypes.map .str)),
      ("sampling_class_type", .str s.samplingClassType),
      ("advanced_sampler_class_type", .str s.advancedSamplerClassType),
      ("max_chain_length", .int s.maxChainLength),
      ("min_strength", .float s.minStrength), ("max_strength", .float s.maxStrength),
      ("default_strength", .float s.defaultStrength)])]

end Settings

end NodeFlow
