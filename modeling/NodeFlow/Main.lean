import NodeFlow.Command.Run
/-!
# The command-line program

Reads the arguments, the files the task names and standard input, runs the
task (`CommandLine.execute`), and then shows what the run shows: it writes the
run's files, prints its two streams and exits with its status. A file the
system refuses to write is refused to a second run, which then reports it. All
decisions are made by the run itself. Text from the system is held
(`Text.hold`) before the run sees it and released (`Text.release`) when it goes
back.
-/

open NodeFlow

/-- Everything left in a stream. -/
partial def readStream (stream : IO.FS.Stream) (acc : String) : IO String := do
  let line ← stream.getLine
  if line.isEmpty then return acc else readStream stream (acc ++ line)

/-- Why the system refused a path. -/
def refusalText (e : IO.Error) (path : String) : String :=
  match e with
  | .noFileOrDirectory _ code _ | .inappropriateType _ code _ | .permissionDenied _ code _
  | .alreadyExists _ code _ | .invalidArgument _ code _ | .otherError code _ =>
    systemErrorText code.toNat path
  | other => toString other

/-- The text of a file, or why it cannot be read. -/
def readPath (path : String) : IO (Except String String) := do
  match FileTree.refusePath path with
  | some why => return .error why
  | none =>
    try
      return .ok (Text.hold (← IO.FS.readFile (Text.release (normalPath path))))
    catch e =>
      return .error (refusalText e path)

/-- Run, write the run's files, and show the run; a refused write runs again
with that path refused. -/
partial def finish (cl : CommandLine) (seed : Int) (read : String → Except String String)
    (refused : List (String × String)) : IO UInt32 := do
  let files : FileAccess := { read, refuseWrite := fun p => refused.lookup (normalPath p) }
  match cl.execute {} files seed with
  | .ok t =>
    let mut failure : Option (String × String) := none
    for (p, text) in t.written do
      if failure.isNone then
        try
          IO.FS.writeFile (Text.release p) (Text.release text)
        catch e =>
          failure := some (p, refusalText e p)
    match failure with
    | some f => finish cl seed read (refused ++ [f])
    | none =>
      IO.print (Text.release t.stdout)
      IO.eprint (Text.release t.stderr)
      return t.exit.toNat.toUInt32
  | .error f =>
    IO.eprintln (Text.release (f.className ++ ": " ++ f.message))
    return 1

def main (args : List String) : IO UInt32 := do
  let cl := CommandLine.parse (args.map Text.hold)
  let paths : List String := match cl with
    | .run inv => inv.schemaPath.toList ++ [inv.input]
    | _ => []
  let stdinText ← if paths.contains "-" then Text.hold <$> readStream (← IO.getStdin) "" else pure ""
  let mut texts : List (String × Except String String) := []
  for p in paths do
    if p != "-" then texts := texts ++ [(p, ← readPath p)]
  let read : String → Except String String := fun path =>
    if path == "-" then .ok stdinText
    else (texts.lookup path).getD (.error (systemErrorText 2 path))
  let seed ← IO.rand 0 maxSeed.toNat
  finish cl seed read []
