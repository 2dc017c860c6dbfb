import NodeFlow.Command.Files
import NodeFlow.Command.Line
import NodeFlow.Command.Usage
import NodeFlow.Submission.Compile
import NodeFlow.Mapping.State
import NodeFlow.Layout.Import
/-!
# Running a task of the command line

A run reaches its files through a `FileAccess`, which gives the text of a path
or the reason it cannot be read and says why a path cannot be written, and
records what the user sees in a `Transcript`: the exit status, the two output
streams and the files written. Reading and writing real files is left to the
caller, so a run is a function of its arguments and the files it can see.

Every task reads the schema first (when one is named), then the input, whose
line ends are made uniform; standard input (`-`) is read once, so an input
read from it after the schema is empty. Warnings go to the error stream as
they arise. A compiler error ends the run with its message for users and its
suggestions; a file that cannot be read or written, or a refused value, ends
it with its text. Any other failure is not the run's to report, and is
returned as a failure.
-/

namespace NodeFlow

open Json

/-- Why a run stopped early. -/
inductive Stop where
  /-- A file could not be read or written. -/
  | fileError (text : String)
  /-- An operation failed. -/
  | failed (f : Failure)

/-- What a run shows. -/
structure Transcript where
  exit : Int := 0
  stdout : String := ""
  stderr : String := ""
  /-- The files written, in order, by path in normal form, with their text. -/
  written : List (String × String) := []

namespace Transcript

/-- Add lines to the error stream. -/
def note (t : Transcript) (lines : List String) : Transcript :=
  { t with stderr := t.stderr ++ String.join (lines.map (· ++ "\n")) }

/-- Write a result: to the file named, or to the output stream when no file (or
the empty name) is given. The text ends with a line end. A file that cannot be
opened stops the run; a text that has no UTF-8 encoding leaves the file opened
and empty, and stops the run. -/
def emit (t : Transcript) (files : FileAccess) (text : String) (path : Option String) :
    Transcript × Option Stop :=
  match path.filter (!·.isEmpty) with
  | some p => match files.refuseWrite p with
    | some why => (t, some (.fileError why))
    | none =>
      let full := text ++ "\n"
      match Text.utf8Failure? full false with
      | some why => ({ t with written := t.written ++ [(normalPath p, "")] }, some (.fileError why))
      | none => ({ t with written := t.written ++ [(normalPath p, full)] }, none)
  | none => ({ t with stdout := t.stdout ++ text ++ "\n" }, none)

end Transcript

namespace Invocation

/-- Line ends made uniform: a carriage return, alone or before a line feed,
becomes a line feed. -/
def uniformLineEnds (text : String) : String :=
  let rec go : List Char → List Char
    | '\r' :: '\n' :: rest => '\n' :: go rest
    | '\r' :: rest => '\n' :: go rest
    | c :: rest => c :: go rest
    | [] => []
  String.ofList (go text.toList)

/-- The text of a file, with uniform line ends. -/
def readText (files : FileAccess) (path : String) : Except Stop String :=
  match files.read path with
  | .ok text => .ok (uniformLineEnds text)
  | .error why => .error (.fileError why)

/-- Lift an operation's outcome into a run. -/
def lift {α : Type} (o : Outcome α) : Except Stop α := o.mapError .failed

/-- The schema file named by the invocation, if any. -/
def schemaPath (inv : Invocation) : Option String := inv.schema.filter (!·.isEmpty)

/-- The schema named by the invocation, or the empty one. -/
def readSchema (inv : Invocation) (files : FileAccess) : Except Stop Schema :=
  match inv.schemaPath with
  | some path => do lift (Schema.ofText (← readText files path))
  | none => .ok Schema.empty

/-- The input text; standard input is empty when the schema was read from it. -/
def readInput (inv : Invocation) (files : FileAccess) : Except Stop String :=
  if inv.input == "-" && inv.schemaPath == some "-" then .ok "" else readText files inv.input

/-- A modifier written `name` or `name:strength`; when what follows the last
colon is no number, the whole text is the name. -/
def modifierValue (spec : String) : Value :=
  match (spec.splitOn ":").reverse with
  | strength :: before@(_ :: _) => match Decimal.readDouble? strength with
    | some x => .obj [("name", .str (":".intercalate before.reverse)), ("strength", .float x)]
    | none => .obj [("name", .str spec)]
  | _ => .obj [("name", .str spec)]

/-- The warning lines of a run. -/
def warningLines (ws : List String) : List String := ws.map ("warning: " ++ ·)

/-- The steps of a task, up to the first stop: the transcript so far, and the
stop if there was one. -/
def steps (inv : Invocation) (s : Settings) (files : FileAccess) (randomSeed : Int) :
    Transcript × Option Stop :=
  let start : Except Stop (Schema × String) := do
    let schema ← inv.readSchema files
    return (schema, ← inv.readInput files)
  match start with
  | .error stop => ({}, some stop)
  | .ok (schema, text) =>
    match inv.task with
    | .convert => match importWorkflow (.str text) schema with
      | .error f => ({}, some (.failed f))
      | .ok (g, ws) => ({} : Transcript).note (warningLines ws) |>.emit files g.serialize inv.output
    | .bypass => match Graph.parse (.str text) schema with
      | .error f => ({}, some (.failed f))
      | .ok g => match g.resolveBypass s.bypassMaxDepth with
        | .error f => ({}, some (.failed f))
        | .ok r => ({} : Transcript).note (warningLines r.warnings) |>.emit files r.graph.serialize inv.output
    | .analyze => match importWorkflow (.str text) schema with
      | .error f => ({}, some (.failed f))
      | .ok (g, ws) =>
        let t := ({} : Transcript).note (warningLines ws)
        let state : Outcome MappingState := do
          let category ← match inv.category.filter (!·.isEmpty) with
            | some c => some <$> Category.ofValue (.str c)
            | none => pure none
          MappingState.ofGraph g schema category
        match state with
        | .error f => (t, some (.failed f))
        | .ok st => match st.toText with
          | .error f => (t, some (.failed f))
          | .ok saved => match t.emit files saved inv.output with
            | (t, some stop) => (t, some stop)
            | (t, none) => match st.unmapped with
              | .error f => (t, some (.failed f))
              | .ok pending => (t.note (pending.map fun f => "unmapped: " ++ f.key.display), none)
    | .prepare => match importWorkflow (.str text) schema with
      | .error f => ({}, some (.failed f))
      | .ok (g, ws) =>
        let values : Outcome Value := match inv.values.filter (!·.isEmpty) with
          | some v => match Value.decode v with
            | .ok doc => .ok doc
            | .error e => .error (.plain (e.message v))
          | none => .ok (.obj [])
        let compiled : Outcome Compiled := do
          let params : Fields := [("values", ← values),
            ("seed", (inv.seed.map Value.int).getD .null), ("randomize_seed", .bool inv.randomSeed),
            ("modifier_chain", .arr (inv.modifiers.map modifierValue))]
          let r ← Request.ofFields s params
          g.compile s schema r (NoisePathRule.default s) randomSeed inv.strict
        match compiled with
        | .error f => ({}, some (.failed f))
        | .ok c =>
          let t := ({} : Transcript).note (warningLines (ws ++ c.warnings) ++ c.errors.map ("error: " ++ ·))
          match t.emit files c.content inv.output with
          | (t, some stop) => (t, some stop)
          | (t, none) => ({ t with exit := if c.isValid then 0 else 1 }, none)

/-- Whether a run reports a failure itself: compiler errors, and refused values. -/
def reports (f : Failure) : Bool :=
  match f with
  | .compiler _ | .invalid .. => true
  | _ => f.className == "ValueError"

/-- Run a task. -/
def execute (inv : Invocation) (s : Settings) (files : FileAccess) (randomSeed : Int) :
    Outcome Transcript :=
  let (t, stop) := inv.steps s files randomSeed
  match stop with
  | none => .ok t
  | some (.fileError why) => .ok { t.note ["Error: " ++ why] with exit := 1 }
  | some (.failed (.compiler e)) =>
    .ok { t.note (("Error: " ++ e.user.display) :: e.hintLines.map ("  - " ++ ·)) with exit := 1 }
  | some (.failed f) =>
    if reports f then .ok { t.note ["Error: " ++ f.message] with exit := 1 } else .error f

end Invocation

namespace CommandLine

/-- The version line. -/
def versionLine : String := programName ++ " v1.0.0"

/-- Run what the arguments ask for. -/
def execute (cl : CommandLine) (s : Settings) (files : FileAccess) (randomSeed : Int) :
    Outcome Transcript :=
  match cl with
  | .version => .ok { stdout := versionLine ++ "\n" }
  | .help task => .ok { stdout := (spec task).helpText }
  | .noTask => .ok { stdout := (spec none).helpText, exit := 2 }
  | .usageError task msg =>
    let p := spec task
    .ok { stderr := p.usage ++ p.prog ++ ": error: " ++ msg ++ "\n", exit := 2 }
  | .run inv => inv.execute s files randomSeed

end CommandLine

end NodeFlow
