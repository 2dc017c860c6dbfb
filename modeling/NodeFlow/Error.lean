import NodeFlow.Json.Display
import NodeFlow.Json.Reader
import NodeFlow.Validation.Issue
/-!
# Failures

Every way an operation of this library can fail, as data. A `CompilerError`
is a failure the library reports on purpose: a kind, a technical message, a
code, ordered details and an optional cause, with plain-language messages for
two other audiences. An `Issue` is one failed field check of a validated
record. The remaining failures are refused inputs of a primitive operation:
reading a number, naming a member of a closed set, iterating a scalar.

`Failure.className` names the kind of a failure and `Failure.message` gives
its text; the compiler errors' text is their developer message.

A compiler error built from a caller's arguments keeps them as they were
given: its message, code, messages for users and suggestions are values, shown
as text where a message holds them, and a message or list of suggestions that
counts as false gives way to the kind's default.
-/

namespace NodeFlow

open Json

/-- The kinds of compiler error. -/
inductive ErrorKind where
  | general
  | parse
  | validation
  | schema
  | invalidParameter
deriving DecidableEq, Repr

namespace ErrorKind

/-- The class name of the kind. -/
def className : ErrorKind → String
  | .general => "ComfyCompilerError"
  | .parse => "WorkflowParseError"
  | .validation => "WorkflowValidationError"
  | .schema => "SchemaError"
  | .invalidParameter => "InvalidParameterError"

/-- The code a kind sets; a general error takes the one it is given. -/
def code? : ErrorKind → Option String
  | .general => none
  | .parse => some "WORKFLOW_PARSE_ERROR"
  | .validation => some "WORKFLOW_VALIDATION_ERROR"
  | .schema => some "SCHEMA_ERROR"
  | .invalidParameter => some "INVALID_PARAMETER"

/-- The message for end users when none is given. -/
def defaultUserMessage : ErrorKind → String
  | .general => "An error occurred"
  | .parse => "The workflow file could not be read"
  | .validation => "Workflow is invalid"
  | .schema => "Node information from the server is invalid"
  | .invalidParameter => "Invalid input"

/-- The simplest explanation when none is given. -/
def defaultEli5Message : ErrorKind → String
  | .general => "Something went wrong"
  | .parse => "The recipe file is broken"
  | .validation => "Some parts of the recipe don't fit together"
  | .schema => "The server described its parts in a way we can't read"
  | .invalidParameter => "Something you entered isn't quite right"

/-- The recovery suggestions when none are given. -/
def defaultSuggestions : ErrorKind → List String
  | .parse => ["Check that the file is valid JSON", "Export the workflow again from the graph editor"]
  | .schema => ["Refresh the node information from the server"]
  | _ => []

end ErrorKind

/-- The failure underneath a compiler error: its class name and its text. -/
structure Cause where
  className : String
  text : String
deriving Repr

/-- A failure reported by the library. -/
structure CompilerError where
  kind : ErrorKind
  /-- The technical message, shown as its text. -/
  message : Value
  /-- The code that tags the developer message. -/
  code : Value
  /-- Context, in the order it was added; a request id is kept here too. -/
  details : Fields := []
  /-- The message for end users, when it counts as true. -/
  userMessage : Value := .null
  /-- The simplest explanation, when it counts as true. -/
  eli5Message : Value := .null
  /-- The recovery suggestions, when they count as true. -/
  suggestions : Value := .null
  /-- The request the failure belongs to, when it counts as true. -/
  requestId : Value := .null
  cause : Option Cause := none

/-- The three audiences of a message. -/
inductive Verbosity where
  | eli5
  | casual
  | developer
deriving DecidableEq, Repr

namespace CompilerError

/-- A compiler error of a kind with its own code. -/
def make (kind : ErrorKind) (message : String) (details : Fields := [])
    (cause : Option Cause := none) : CompilerError :=
  { kind := kind, message := .str message, code := .str (kind.code?.getD kind.className),
    details := details, cause := cause }

/-- A workflow that cannot be read. Line and column join the details. -/
def parseFailure (message : String) (line column : Option Nat := none)
    (cause : Option Cause := none) : CompilerError :=
  let details : Fields := (line.map fun l => [("line", Value.int l)]).getD [] ++
    (column.map fun c => [("column", Value.int c)]).getD []
  make .parse message details cause

/-- A parameter with an unusable value: the message names the parameter and
shows the value; the details repeat both, with the reason and the allowed
values when there are any. -/
def invalidParameter (parameter : String) (value : Value) (reason : Option String := none)
    (allowed : List Value := []) (extra : Fields := []) (cause : Option Cause := none) :
    CompilerError :=
  let reasonText := reason.filter (!·.isEmpty)
  let msg := "Invalid value for '" ++ parameter ++ "': " ++ value.display ++
    (reasonText.map (fun r => " (" ++ r ++ ")")).getD ""
  let details := Fields.insert (Fields.insert extra "parameter" (.str parameter)) "value" (.str value.display)
  let details := match reasonText with
    | some r => Fields.insert details "reason" (.str r)
    | none => details
  let details := if allowed.isEmpty then details else Fields.insert details "allowed_values" (.arr allowed)
  let user := "Invalid " ++ parameter ++
    (if allowed.isEmpty then "" else ". Choose from: " ++ ", ".intercalate ((allowed.take 5).map Value.display))
  { make .invalidParameter msg details cause with userMessage := .str user }

/-- A workflow that failed validation; the errors found join the details. -/
def invalidWorkflow (message : String) (errors : List String) : CompilerError :=
  make .validation message (if errors.isEmpty then [] else [("validation_errors", .arr (errors.map .str))])

/-- The message for end users. -/
def user (e : CompilerError) : Value :=
  if e.userMessage.truthy then e.userMessage else .str e.kind.defaultUserMessage

/-- The simplest explanation. -/
def eli5 (e : CompilerError) : Value :=
  if e.eli5Message.truthy then e.eli5Message else .str e.kind.defaultEli5Message

/-- The recovery suggestions. -/
def hints (e : CompilerError) : Value :=
  if e.suggestions.truthy then e.suggestions else .arr (e.kind.defaultSuggestions.map .str)

/-- The recovery suggestions as lines of text. -/
def hintLines (e : CompilerError) : List String :=
  match e.hints with
  | .arr items => items.map Value.display
  | _ => []

/-- The details as written in messages: all but the request id. -/
def shownDetails (e : CompilerError) : Fields := e.details.filter (·.1 != "request_id")

/-- `[CODE] message`, then the details as `(k=v, …)`, then the cause as
`[caused by: Class: text]`. A request id joins the code: `[CODE:id]`. -/
def developerMessage (e : CompilerError) : String :=
  let tag := if e.requestId.truthy then "[" ++ e.code.display ++ ":" ++ e.requestId.display ++ "]"
    else "[" ++ e.code.display ++ "]"
  let shown := e.shownDetails
  let detailText := if shown.isEmpty then "" else
    " (" ++ ", ".intercalate (shown.map fun (k, v) => k ++ "=" ++ v.display) ++ ")"
  let causeText := match e.cause with
    | some c => " [caused by: " ++ c.className ++ ": " ++ c.text ++ "]"
    | none => ""
  tag ++ " " ++ e.message.display ++ detailText ++ causeText

/-- The message for an audience. -/
def messageFor (e : CompilerError) : Verbosity → Value
  | .eli5 => e.eli5
  | .casual => e.user
  | .developer => .str e.developerMessage

/-- The error as a record: the code, the user message and the suggestions,
then the details, the developer message and the cause's text. -/
def describe (e : CompilerError) : Fields :=
  [("error", .bool true), ("code", e.code), ("message", e.user), ("suggestions", e.hints)] ++
  (if e.requestId.truthy then [("request_id", e.requestId)] else []) ++
  [("details", .obj e.details), ("developer_message", .str e.developerMessage)] ++
  (e.cause.map fun c => [("cause", Value.str c.text)]).getD []

end CompilerError

/-- Every way an operation can fail. -/
inductive Failure where
  /-- A compiler error. -/
  | compiler (e : CompilerError)
  /-- Field checks of the validated record `title` failed. -/
  | invalid (title : String) (issues : List Issue)
  /-- A text names no member of a closed set: `'x' is not a valid Kind`. -/
  | notAMember (shown setName : String)
  /-- A value of a scalar kind was iterated. -/
  | notIterable (typeName : String)
  /-- A value of a kind that lacks an attribute was asked for it. -/
  | noAttribute (typeName attr : String)
  /-- A value of a scalar kind was split into a pair. -/
  | notUnpackable (typeName : String)
  /-- An object has no member of the name asked for (shown as a literal). -/
  | missingKey (shown : String)
  /-- A scalar was indexed. -/
  | notSubscriptable (typeName : String)
  /-- A sequence was indexed by a value that is not a position. -/
  | badIndex (typeName indexType : String)
  /-- A value of a kind that is no number was read as an integer. -/
  | intArgument (typeName : String)
  /-- A NaN was read as an integer. -/
  | nanToInteger
  /-- An infinite double was read as an integer. -/
  | infinityToInteger
  /-- A pair was expected and the sequence had another length. -/
  | unpack (expected got : Nat)
  /-- A text of digits holds one that no integer reading accepts. -/
  | notAnInteger (shown : String)
  /-- A text that is no number was read as a double. -/
  | notAFloat (shown : String)
  /-- A value of a kind that is no number was read as a double. -/
  | floatArgument (typeName : String)
  /-- An integer too large for a double. -/
  | overflow
  /-- A value of a kind that cannot be a set member or a key was used as one. -/
  | unhashable (typeName : String)
  /-- Named arguments were read from a value that is not an object. -/
  | notAMapping (callee typeName : String)
  /-- A call whose arguments do not fit the callee. -/
  | badCall (text : String)
  /-- Values of two kinds with no order between them were compared by `op`. -/
  | unordered (op left right : String)
  /-- An integer written with more digits than may be read. -/
  | digitLimit (count : Nat)
  /-- A value of a kind that holds no items was given one. -/
  | noItemAssignment (typeName : String)
  /-- A value that is not text was read as a JSON document. -/
  | notJsonText (typeName : String)
  /-- A setting of a group could not be read from its source. -/
  | settingsSource (field source : String)
  /-- An arithmetic operator was applied to values of kinds it does not take. -/
  | unsupportedOperand (op left right : String)
  /-- A sequence was repeated a number of times given by a value of this kind. -/
  | sequenceRepeat (typeName : String)
  /-- A list was cut at a position that is not an integer. -/
  | badSliceIndex
  /-- A text holds a character that its encoding cannot write. -/
  | unencodable (text : String)
  /-- An integer has too many digits to be written out. -/
  | tooManyDigitsToWrite
  /-- A value of a scalar kind was asked whether it holds another. -/
  | notContainer (typeName : String)
  /-- An integer used as a count or position lies outside the machine word. -/
  | indexOverflow
  /-- A plain error with a free text. -/
  | plain (text : String)

namespace Failure

/-- The class name of the failure. -/
def className : Failure → String
  | .compiler e => e.kind.className
  | .invalid .. => "ValidationError"
  | .notAMember .. | .unpack .. | .notAnInteger _ | .notAFloat _ | .nanToInteger | .plain _
  | .digitLimit _ => "ValueError"
  | .noItemAssignment _ | .notJsonText _ => "TypeError"
  | .settingsSource .. => "SettingsError"
  | .notIterable _ | .floatArgument _ | .notUnpackable _ | .notSubscriptable _ | .badIndex ..
  | .intArgument _ | .badCall _ | .unordered .. | .unsupportedOperand ..
  | .sequenceRepeat _ | .badSliceIndex => "TypeError"
  | .noAttribute .. => "AttributeError"
  | .missingKey _ => "KeyError"
  | .unhashable _ | .notAMapping .. => "TypeError"
  | .overflow | .infinityToInteger => "OverflowError"
  | .unencodable _ => "UnicodeEncodeError"
  | .tooManyDigitsToWrite => "ValueError"
  | .notContainer _ => "TypeError"
  | .indexOverflow => "OverflowError"

/-- The text of the failure. -/
def message : Failure → String
  | .compiler e => e.developerMessage
  | .invalid title issues => Issue.report title issues
  | .notAMember shown setName => shown ++ " is not a valid " ++ setName
  | .notIterable t => "'" ++ t ++ "' object is not iterable"
  | .noAttribute t attr => "'" ++ t ++ "' object has no attribute '" ++ attr ++ "'"
  | .notUnpackable t => "cannot unpack non-iterable " ++ t ++ " object"
  | .missingKey shown => shown
  | .notSubscriptable t => "'" ++ t ++ "' object is not subscriptable"
  | .badIndex t index =>
    if t == "str" then "string indices must be integers, not '" ++ index ++ "'"
    else t ++ " indices must be integers or slices, not " ++ index
  | .intArgument t =>
    "int() argument must be a string, a bytes-like object or a real number, not '" ++ t ++ "'"
  | .nanToInteger => "cannot convert float NaN to integer"
  | .infinityToInteger => "cannot convert float infinity to integer"
  | .unpack expected got =>
    if got < expected then
      "not enough values to unpack (expected " ++ toString expected ++ ", got " ++ toString got ++ ")"
    else "too many values to unpack (expected " ++ toString expected ++ ")"
  | .notAnInteger shown => "invalid literal for int() with base 10: " ++ shown
  | .notAFloat shown => "could not convert string to float: " ++ shown
  | .floatArgument t => "float() argument must be a string or a real number, not '" ++ t ++ "'"
  | .overflow => "int too large to convert to float"
  | .unhashable t => "unhashable type: '" ++ t ++ "'"
  | .notAMapping callee t => callee ++ " argument after ** must be a mapping, not " ++ t
  | .badCall text => text
  | .unordered op left right =>
    "'" ++ op ++ "' not supported between instances of '" ++ left ++ "' and '" ++ right ++ "'"
  | .unsupportedOperand op left right =>
    "unsupported operand type(s) for " ++ op ++ ": '" ++ left ++ "' and '" ++ right ++ "'"
  | .sequenceRepeat t => "can't multiply sequence by non-int of type '" ++ t ++ "'"
  | .badSliceIndex => "slice indices must be integers or None or have an __index__ method"
  | .unencodable text => text
  | .tooManyDigitsToWrite => Decimal.writeLimitText
  | .notContainer t => "argument of type '" ++ t ++ "' is not iterable"
  | .indexOverflow => "cannot fit 'int' into an index-sized integer"
  | .digitLimit n => Decimal.digitLimitText n
  | .noItemAssignment t => "'" ++ t ++ "' object does not support item assignment"
  | .notJsonText t => "the JSON object must be str, bytes or bytearray, not " ++ t
  | .settingsSource field source =>
    "error parsing value for field \"" ++ field ++ "\" from source \"" ++ source ++ "\""
  | .plain text => text

/-- The failure of reading a document: a syntax fault as `onSyntax` reports it,
an integer with too many digits as the failure of reading that integer. -/
def ofDecode (onSyntax : DecodeError → Failure) (e : DecodeError) : Failure :=
  match e.fault with
  | .tooManyDigits n => .digitLimit n
  | _ => onSyntax e

/-- Read a document, reporting a syntax fault with `onSyntax`. -/
def decode (doc : String) (onSyntax : DecodeError → Failure) : Except Failure Value :=
  (Value.decode doc).mapError (ofDecode onSyntax)

end Failure

/-- A computation that may fail. -/
abbrev Outcome (α : Type) := Except Failure α

/-- An integer written out in decimal, unless it has more than
`Decimal.maxIntegerDigits` digits. -/
def integerText (n : Int) : Outcome String :=
  if Decimal.maxIntegerDigits < (toString n.natAbs).length then .error .tooManyDigitsToWrite
  else .ok (toString n)

/-- The text `write` makes of a value, unless the value holds an integer of
more than `Decimal.maxIntegerDigits` digits, which is written out neither as
message text (`Value.display`) nor as JSON (`Value.render`). -/
def Json.Value.textBy (write : Value → String) (v : Value) : Outcome String :=
  if Issue.writable v then .ok (write v) else .error .tooManyDigitsToWrite

end NodeFlow
