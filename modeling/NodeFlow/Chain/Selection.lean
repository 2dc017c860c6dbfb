import NodeFlow.Settings
import NodeFlow.Json.Number
import NodeFlow.Json.Access
import NodeFlow.Json.Display
import NodeFlow.Decimal.Lenient
/-!
# Modifier chains

A chain is a list of modifiers (LoRA files), each with a strength. A selection
built from user data is checked: its name must be text without a lone
surrogate half, which is trimmed of White_Space and must then hold 1 to 500
characters, and its strength must read leniently as a double (an integer
beyond the doubles is no double at all) and is clamped to the configured
bounds. A selection without a strength takes 1.0 as it is.

The editing operations leave the chain as it was for an index outside it.
Renaming takes the new name as given; setting a strength clamps it.
-/

namespace NodeFlow

open Json

/-- One modifier of a chain. -/
structure Selection where
  name : Value
  strength : Binary64

/-- A chain of modifiers. -/
abbrev Chain := List Selection

namespace Selection

/-- Clamp a strength into the configured bounds: `min (max x low) high`, each
keeping its first argument unless the second is strictly beyond it. -/
def clamp (s : Settings) (x : Binary64) : Binary64 :=
  (x.keepMax s.minStrength).keepMin s.maxStrength

/-- A strength as the checks read it: a number, a boolean, or text that reads
leniently as a double. -/
def readStrength : Value → Except IssueKind Binary64
  | .int n => match Binary64.ofInt? n with
    | some x => .ok x
    | none => .error .floatType
  | .float x => .ok x
  | .bool true => .ok Binary64.one
  | .bool false => .ok Binary64.zero
  | .str t =>
    if Text.hasSurrogate t then .error .stringUnicode
    else match Decimal.lenientDouble? t with
      | some x => .ok x
      | none => .error .floatParsing
  | _ => .error .floatType

/-- The longest name a selection may have, in characters. -/
def maxNameLength : Nat := 500

/-- A checked name: text without a lone surrogate half, trimmed of White_Space,
of 1 to `maxNameLength` characters. -/
def readName : Value → Except IssueKind String
  | .str t =>
    let t := Text.trimWhiteSpace t
    if Text.hasSurrogate t then .error .stringUnicode
    else if t.isEmpty then .error (.stringTooShort 1)
    else if maxNameLength < Text.codeLength t then .error (.stringTooLong maxNameLength)
    else .ok t
  | _ => .error .stringType

/-- The name of the record a selection is checked as. -/
def recordName : String := "ModifierSelection"

/-- A selection from an object of named fields, checked; fields other than the
name and the strength are ignored. -/
def ofFields (s : Settings) (fs : Fields) : Outcome Selection :=
  let n : Except Issue String := match Fields.get? fs "name" with
    | some v => (readName v).mapError fun k => ⟨["name"], k, v⟩
    | none => .error ⟨["name"], .missing, .obj fs⟩
  let x : Except Issue Binary64 := match Fields.get? fs "strength" with
    | some v => ((readStrength v).map (clamp s)).mapError fun k => ⟨["strength"], k, v⟩
    | none => .ok Binary64.one
  match n, x with
  | .ok n, .ok x => .ok ⟨.str n, x⟩
  | n, x =>
    let issues := (match n with
      | .error i => [i]
      | .ok _ => []) ++ (match x with
      | .error i => [i]
      | .ok _ => [])
    .error (.invalid recordName issues)

/-- The selection as an object. -/
def toValue (sel : Selection) : Value := .obj [("name", sel.name), ("strength", .float sel.strength)]

end Selection

namespace Chain

/-- A chain from a list of objects; null is the empty chain. -/
def ofValue (s : Settings) (raw : Value) : Outcome Chain := do
  let items ← if raw.truthy then raw.elements else .ok []
  items.mapM fun item => match item with
    | .obj fs => Selection.ofFields s fs
    | v => .error (.notAMapping "comfy_compiler.chains.ModifierSelection()" v.typeName)

/-- Append the first available file unless the chain is full or none is
available (`available` counts as false); the limit is the configured one
unless given, and is compared with the chain's length first. -/
def add (s : Settings) (c : Chain) (available : Value) (limit : Value := .null) :
    Outcome Chain := do
  let full ← match limit with
    | .null => pure (decide (s.maxChainLength ≤ (c.length : Int)))
    | v => do
      let o ← v.compareFrom ">=" c.length
      pure (o == some .gt || o == some .eq)
  if full || !available.truthy then return c
  else
    let sel ← Selection.ofFields s [("name", ← available.first), ("strength", .float s.defaultStrength)]
    return c ++ [sel]

/-- The selection a position within the chain names: an integer or a boolean;
a double cannot index the chain. -/
def position (c : Chain) (index : Value) : Outcome Nat :=
  match index.listIndex? with
  | some i => if i < c.length then .ok i else .error (.plain "list index out of range")
  | none => .error (.badIndex "list" index.typeName)

/-- Remove the selection at an index; an index outside the chain leaves it as it
is, and a double within it cannot cut the chain. -/
def remove (c : Chain) (index : Value) : Outcome Chain := do
  if ← index.withinSize c.length then
    match index.listIndex? with
    | some i => return c.eraseIdx i
    | none => throw .badSliceIndex
  else return c

/-- Give the selection at an index a new name, taken as it is. -/
def rename (c : Chain) (index : Value) (name : Value) : Outcome Chain := do
  if ← index.withinSize c.length then
    let i ← c.position index
    return c.modify i fun sel => { sel with name := name }
  else return c

/-- Give the selection at an index a new strength, read as a number and clamped;
the selection is found before the strength is read. -/
def setStrength (s : Settings) (c : Chain) (index : Value) (strength : Value) : Outcome Chain := do
  if ← index.withinSize c.length then
    let i ← c.position index
    let x ← strength.toDouble
    return c.modify i fun sel => { sel with strength := Selection.clamp s x }
  else return c

/-- Keep the selections whose name is one of the available files: the items of
a list, the characters of a text or the names of an object. -/
def keepAvailable (c : Chain) (available : Value) : Outcome Chain := do
  let known ← available.iterate
  for v in known do
    if v.isArr || v.isObj then throw (.unhashable v.typeName)
  c.filterM fun sel => do
    if sel.name.isArr || sel.name.isObj then throw (.unhashable sel.name.typeName)
    return known.any (Value.sameKey sel.name)

/-- The chain as JSON text, one line, ASCII only. -/
def toText (c : Chain) : String := (Value.arr (c.map Selection.toValue)).render Layout.inlineAscii

/-- A chain saved as JSON text. Empty text is the empty chain; items that are not
objects, and items whose name is missing or blank, are skipped. -/
def ofText (s : Settings) (text : String) : Outcome Chain :=
  if text.isEmpty then .ok []
  else
    let shown := Value.str (String.join ((Text.characters text).take 50))
    match Value.decode text with
    | .error e => .error (Failure.ofDecode (fun e => .compiler (CompilerError.invalidParameter
        "modifier_chain" shown (some e.fault.text) [] [] (some ⟨"JSONDecodeError", e.message text⟩))) e)
    | .ok (.arr items) =>
      items.foldlM (fun acc item => match item with
        | .obj fs =>
          let raw := (Fields.get? fs "name").getD .null
          let name := Text.trim (if raw.truthy then raw.display else "")
          if name.isEmpty then .ok acc
          else do
            let sel ← Selection.ofFields s
              [("name", .str name), ("strength", (Fields.get? fs "strength").getD (.float Binary64.one))]
            return acc ++ [sel]
        | _ => .ok acc) []
    | .ok _ => .error (.compiler (CompilerError.invalidParameter "modifier_chain" shown
        (some "expected a list")))

/-- A chain from a value that should hold its saved text: a value that counts as
false is the empty chain, text is read by `ofText`, and anything else is no
JSON text. -/
def ofSaved (s : Settings) : Value → Outcome Chain
  | .str text => ofText s text
  | v => if v.truthy then .error (.notJsonText v.typeName) else .ok []

end Chain

end NodeFlow
