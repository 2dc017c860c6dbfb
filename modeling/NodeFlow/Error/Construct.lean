import NodeFlow.Error
import NodeFlow.Json.Number
/-!
# Building compiler errors from named arguments

`CompilerError.ofArguments` builds an error of a kind from named arguments, as
its constructor takes them. Every kind accepts the common arguments (messages
for each audience, a code, details, suggestions, a request id); each kind adds
its own:

* a parse error takes a line and a column, which join the details;
* a validation error takes the list of errors found, kept in the details;
* an invalid parameter takes the parameter, its value, a reason and the allowed
  values, from which it writes its message and its message for end users.

Arguments are bound as a call binds them: an argument no parameter takes, a
required parameter left out, or an argument given twice (once by the kind and
once by the caller) refuses the call. Values are shown as their text where a
message holds them, and kept as they are everywhere else. Details are set
entry by entry on the value given, which must then be an object; given as
anything else they fail the first entry set on them, or else the messages.
-/

namespace NodeFlow

open Json

namespace CompilerError

/-- The parameters every compiler error takes besides its message. -/
def commonParameters : List String :=
  ["user_message", "eli5_message", "code", "details", "cause", "suggestions", "level", "request_id"]

/-- The name a kind's constructor is known by in binding errors. -/
def constructorName (kind : ErrorKind) : String := kind.className ++ ".__init__()"

/-- The name the common constructor is known by when arguments are merged. -/
def qualifiedConstructorName : String := "comfy_compiler.exceptions.ComfyCompilerError.__init__()"

/-- Set an entry of a value that should be an object: a list takes no name as
an index, and a scalar holds no entries. -/
def setEntry (target : Value) (key : String) (v : Value) : Outcome Value :=
  match target with
  | .obj fs => .ok (.obj (Fields.insert fs key v))
  | .arr _ => .error (.badIndex "list" "str")
  | t => .error (.noItemAssignment t.typeName)

/-- The common part: bind `message` and the named arguments `args` (which the
kind may have extended) to the common parameters and build the error. Details
that count as false are empty; a request id that counts as true joins them. The
details are returned as given, for `withDetails` to check once the kind's own
work is done. -/
def common (kind : ErrorKind) (message : Value) (args : Fields) : Outcome (CompilerError × Value) := do
  for (k, _) in args do
    if k == "message" then
      throw (.badCall (constructorName .general ++ " got multiple values for argument 'message'"))
    if !commonParameters.contains k then
      throw (.badCall (constructorName .general ++ " got an unexpected keyword argument '" ++ k ++ "'"))
  let get (k : String) : Value := (Fields.get? args k).getD .null
  let details := if (get "details").truthy then get "details" else .obj []
  let details ← if (get "request_id").truthy then setEntry details "request_id" (get "request_id")
    else pure details
  if (get "cause").truthy then
    throw (.badCall "exception cause must be None or derive from BaseException")
  let code := get "code"
  return ({ kind := kind
            message := message
            code := if code.truthy then code else .str (kind.code?.getD kind.className)
            userMessage := get "user_message"
            eli5Message := get "eli5_message"
            suggestions := get "suggestions"
            requestId := get "request_id" }, details)

/-- Pass arguments on to the common part together with those the kind sets
itself; an argument the caller gave as well is given twice. -/
def forward (kind : ErrorKind) (message : Value) (own : Fields) (rest : Fields) :
    Outcome (CompilerError × Value) := do
  for (k, _) in rest do
    if own.any (·.1 == k) then
      throw (.badCall (qualifiedConstructorName ++ " got multiple values for keyword argument '" ++ k ++ "'"))
  common kind message (own ++ rest)

/-- The error with its details, which must be an object for its messages to be
written. -/
def withDetails (e : CompilerError) (details : Value) : Outcome CompilerError :=
  match details with
  | .obj fs => .ok { e with details := fs }
  | d => .error (.noAttribute d.typeName "items")

/-- A required parameter of a kind's own, or the binding error naming those missing. -/
def missingArguments (kind : ErrorKind) (args : Fields) (names : List String) : Outcome Unit :=
  match names.filter (fun n => !args.any (·.1 == n)) with
  | [] => .ok ()
  | [n] => .error (.badCall (constructorName kind ++ " missing 1 required positional argument: '" ++ n ++ "'"))
  | missing =>
    let quoted := missing.map fun n => "'" ++ n ++ "'"
    let listed := match quoted.reverse with
      | last :: before => ", ".intercalate before.reverse ++ " and " ++ last
      | [] => ""
    .error (.badCall (constructorName kind ++ " missing " ++ toString missing.length ++
      " required positional arguments: " ++ listed))

/-- The first five items of the allowed values, as a cut of them yields: the
items of a list, the characters of a text. An object cannot be cut, and a
scalar cannot be indexed. -/
def firstFive : Value → Outcome (List Value)
  | .arr xs => .ok (xs.take 5)
  | .str s => .ok (((Text.characters s).take 5).map .str)
  | .obj _ => .error (.unhashable "slice")
  | v => .error (.notSubscriptable v.typeName)

/-- The binding error of an argument named `self`: every constructor already
has the new error there. -/
def selfGivenTwice (kind : ErrorKind) : Failure :=
  .badCall (constructorName kind ++ " got multiple values for argument 'self'")

/-- Build an error of a kind from named arguments. Every kind's constructor
binds its arguments before anything else: the common one takes only its own
names, in the order given; the others gather names they do not know. -/
def ofArguments (kind : ErrorKind) (args : Fields) : Outcome CompilerError := do
  let get (k : String) : Option Value := Fields.get? args k
  let without (names : List String) : Fields := args.filter fun p => !names.contains p.1
  let given (k : String) : Value := (get k).getD (.obj [])
  if kind != .general && args.any (·.1 == "self") then throw (selfGivenTwice kind)
  match kind with
  | .general =>
    for (k, _) in args do
      if k == "self" then throw (selfGivenTwice .general)
      if k != "message" && !commonParameters.contains k then
        throw (.badCall (constructorName .general ++ " got an unexpected keyword argument '" ++ k ++ "'"))
    missingArguments .general args ["message"]
    let (e, d) ← common .general ((get "message").getD .null) (without ["message"])
    withDetails e d
  | .parse =>
    let message := (get "message").getD (.str "Failed to parse workflow")
    let details ← match get "line" with
      | some .null | none => pure (given "details")
      | some line => setEntry (given "details") "line" line
    let details ← match get "column" with
      | some .null | none => pure details
      | some column => setEntry details "column" column
    let (e, d) ← forward .parse message [("code", .str "WORKFLOW_PARSE_ERROR"), ("details", details)]
      (without ["message", "source_text", "line", "column", "details"])
    withDetails e d
  | .validation =>
    let message := (get "message").getD (.str "Workflow validation failed")
    let errors := (get "errors").getD .null
    let details ← if errors.truthy then setEntry (given "details") "validation_errors" errors
      else pure (given "details")
    let (e, d) ← forward .validation message
      [("code", .str "WORKFLOW_VALIDATION_ERROR"), ("details", details)]
      (without ["message", "errors", "details"])
    let _ ← if errors.truthy then errors.elements else pure []
    withDetails e d
  | .schema =>
    let message := (get "message").getD (.str "Invalid node type schema")
    let (e, d) ← forward .schema message [("code", .str "SCHEMA_ERROR")] (without ["message"])
    withDetails e d
  | .invalidParameter =>
    missingArguments .invalidParameter args ["parameter", "value"]
    let parameter := (get "parameter").getD .null
    let value := (get "value").getD .null
    let reason := (get "reason").getD .null
    let allowed := (get "allowed_values").getD .null
    let msg := "Invalid value for '" ++ parameter.display ++ "': " ++ value.display ++
      (if reason.truthy then " (" ++ reason.display ++ ")" else "")
    let details ← setEntry (given "details") "parameter" parameter
    let details ← setEntry details "value" (.str value.display)
    let details ← if reason.truthy then setEntry details "reason" reason else pure details
    let details ← if allowed.truthy then setEntry details "allowed_values" allowed else pure details
    let shownAllowed ← if allowed.truthy then firstFive allowed else pure []
    let user := "Invalid " ++ parameter.display ++
      (if allowed.truthy then ". Choose from: " ++ ", ".intercalate (shownAllowed.map Value.display)
       else "")
    let (e, d) ← forward .invalidParameter (.str msg)
      [("code", .str "INVALID_PARAMETER"), ("user_message", .str user), ("details", details)]
      (without ["parameter", "value", "reason", "allowed_values", "details"])
    withDetails e d

end CompilerError

/-- The kind of compiler error a class name names. -/
def ErrorKind.ofClassName? (name : String) : Option ErrorKind :=
  [ErrorKind.general, .parse, .validation, .schema, .invalidParameter].find? (·.className == name)

namespace Verbosity

/-- The word for an audience. -/
def name : Verbosity → String
  | .eli5 => "eli5"
  | .casual => "casual"
  | .developer => "developer"

/-- The audience a value names: only its exact word names it. -/
def ofValue (v : Value) : Outcome Verbosity :=
  match [Verbosity.eli5, .casual, .developer].find? (fun l => v.str? == some l.name) with
  | some l => .ok l
  | none => .error (.notAMember v.literal "VerbosityLevel")

end Verbosity

/-- The text of a plain error raised with these arguments: nothing for none,
the text of a single one, and the literal of the tuple of several. -/
def plainErrorText : List Value → String
  | [] => ""
  | [a] => a.display
  | xs => "(" ++ ", ".intercalate (xs.map Value.literal) ++ ")"

/-- How a failure that is not a compiler error is shown to an audience. -/
def plainErrorFor (className text : String) : Verbosity → String
  | .eli5 => "Something went wrong"
  | .casual => "Error: " ++ className
  | .developer => className ++ ": " ++ text

end NodeFlow
