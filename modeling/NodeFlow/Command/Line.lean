import NodeFlow.Command.Arguments
/-!
# The command line

The program is run as `comfy-compiler [--version] [--log-level LEVEL] TASK
INPUT [options]`, where the task is one of `convert`, `bypass`, `analyze` and
`prepare`. Every task reads its input from a file or, for `-`, from standard
input, and takes `--output`/`-o` and `--schema`/`-s`; `analyze` also takes
`--category`/`-c`, and `prepare` takes `--values`, `--seed`, `--random-seed`,
`--lora` (repeatable) and `--strict`.

Options are read the usual way: a long option by its full name or any prefix
naming one option alone, its value after `=` or as the next argument; a short
option with its value attached or next; `--` ends the options. A word that
starts with a dash followed by a digit is a value, not an option.
`CommandLine.parse` reads the arguments into a `CommandLine`.
-/

namespace NodeFlow

/-- The tasks of the command line. -/
inductive Task where
  | convert
  | bypass
  | analyze
  | prepare
deriving DecidableEq, Repr

namespace Task

/-- The word that names a task. -/
def name : Task → String
  | .convert => "convert"
  | .bypass => "bypass"
  | .analyze => "analyze"
  | .prepare => "prepare"

/-- Every task, in the order they are listed. -/
def all : List Task := [.convert, .bypass, .analyze, .prepare]

end Task

/-- A task with its input and options. -/
structure Invocation where
  task : Task
  input : String
  output : Option String := none
  schema : Option String := none
  category : Option String := none
  values : Option String := none
  seed : Option Int := none
  randomSeed : Bool := false
  modifiers : List String := []
  strict : Bool := false
  logLevel : Option String := none

/-- What the arguments ask for. A parser is named by its task, or by none for
the program's own. -/
inductive CommandLine where
  /-- Show the version. -/
  | version
  /-- Show the help of the program or of a task (`-h`). -/
  | help (task : Option Task)
  /-- No task was named: show the help and fail. -/
  | noTask
  /-- Run a task. -/
  | run (inv : Invocation)
  /-- The arguments do not fit; the parser of the task named explains why. -/
  | usageError (task : Option Task) (message : String)

namespace CommandLine

open Arguments

/-- The program name. -/
def programName : String := "comfy-compiler"

/-- The options of the program before the task. -/
def programOptions : List OptionSpec :=
  [⟨["-h", "--help"], "help", .help, some "show this help message and exit", false⟩,
    ⟨["--version", "-v"], "version", .flag, some "Show version and exit", false⟩,
    ⟨["--log-level"], "log_level", .single, some "Override the log level", false⟩]

/-- The help of each task, as the program lists them. -/
def taskHelp : Task → String
  | .convert => "Convert to canonical format"
  | .bypass => "Resolve bypassed nodes"
  | .analyze => "Map semantic fields"
  | .prepare => "Prepare for submission"

/-- The options of a task. -/
def taskOptions (t : Task) : List OptionSpec :=
  [⟨["-h", "--help"], "help", .help, some "show this help message and exit", false⟩,
    ⟨["--output", "-o"], "output", .single, some "Write output here instead of stdout", false⟩,
    ⟨["--schema", "-s"], "schema", .single, some "object_info JSON from the server", false⟩] ++
  match t with
  | .analyze => [⟨["--category", "-c"], "category", .single, some "tti, iti_inpainting, ...", false⟩]
  | .prepare =>
    [⟨["--values"], "values", .single, some "JSON object of placeholder values", false⟩,
      ⟨["--seed"], "seed", .single, none, true⟩,
      ⟨["--random-seed"], "random_seed", .flag, none, false⟩,
      ⟨["--lora"], "lora", .repeated, some "name[:strength], repeatable", false⟩,
      ⟨["--strict"], "strict", .flag, some "Fail on structural errors", false⟩]
  | _ => []

/-- The parser of a task, or the program's own for none. -/
def spec : Option Task → ParserSpec
  | none =>
    { prog := programName
      description := some "Comfy Compiler - ComfyUI workflow graph compiler"
      options := programOptions
      rest := .tasks (Task.all.map fun t => (t.name, taskHelp t)) }
  | some t =>
    { prog := programName ++ " " ++ t.name
      options := taskOptions t
      rest := .positional "input" "Workflow JSON file ('-' for stdin)" }

/-- The last value of a field. -/
def lastOf (r : Reading) (field : String) : Option String :=
  (r.values.filter (·.1 == field)).getLast?.map (·.2)

/-- Whether a switch was given. -/
def given (r : Reading) (field : String) : Bool := r.values.any (·.1 == field)

/-- The invocation a task's reading makes. -/
def invocationOf (t : Task) (r : Reading) (logLevel : Option String) : Invocation :=
  { task := t
    input := r.positional.getD ""
    output := lastOf r "output"
    schema := lastOf r "schema"
    category := lastOf r "category"
    values := lastOf r "values"
    seed := (lastOf r "seed").bind fun text => (Decimal.readInteger text).toOption
    randomSeed := given r "random_seed"
    modifiers := (r.values.filter (·.1 == "lora")).map (·.2)
    strict := given r "strict"
    logLevel := logLevel }

/-- Read the arguments of the program: its own options, then the task's words
with the task's parser. Words neither parser takes are refused last, by the
program's parser. -/
def parse (argv : List String) : CommandLine :=
  match (spec none).read argv with
  | .error .help => .help none
  | .error (.error msg) => .usageError none msg
  | .ok r =>
    let unrecognised (extra : List String) (cl : CommandLine) : CommandLine :=
      if extra.isEmpty then cl
      else .usageError none ("unrecognized arguments: " ++ " ".intercalate extra)
    let showVersion := given r "version"
    match r.task with
    | some (word :: words) => match Task.all.find? (·.name == word) with
      | none => .usageError none ("argument command: invalid choice: " ++ Json.quoteLiteral word ++
          " (choose from " ++ ", ".intercalate (Task.all.map fun t => Json.quoteLiteral t.name) ++ ")")
      | some t => match (spec (some t)).read words with
        | .error .help => .help (some t)
        | .error (.error msg) => .usageError (some t) msg
        | .ok tr =>
          unrecognised (r.extras ++ tr.extras)
            (if showVersion then .version else .run (invocationOf t tr (lastOf r "log_level")))
    | _ => unrecognised r.extras (if showVersion then .version else .noTask)

end CommandLine

end NodeFlow
