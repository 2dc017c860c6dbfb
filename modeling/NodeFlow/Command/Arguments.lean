import NodeFlow.Decimal.Text
import NodeFlow.Json.Display
/-!
# Reading argument words

A parser is described by its options and by what follows them
(`ParserSpec`): one positional argument, or the choice of a task whose words
go to the task's own parser. `ParserSpec.read` reads a list of words in two
passes.

* Every word is classified first (`ParserSpec.classify`). After a `--` every
  word is a value. Otherwise a word starting with `-` is an option when it is
  an option's name, a name followed by `=` and a value, a prefix of long names
  (refused when several share it), or a short name followed by an attached
  value. A dash alone, a word that reads as a negative number and a word with
  a space are values; any other dashed word is an unknown option.
* Then the words are taken from the left. Values before an option fill the
  positional argument; an option takes its attached value or else the next
  word, which must be a value; a short switch with letters attached stands for
  several short options. Unknown options and values nothing takes are extras.

The help switch stops the reading at once. A missing positional argument is
refused once every word is read.
-/

namespace NodeFlow

namespace Arguments

/-- What an option does. -/
inductive Action where
  /-- Show the help and stop. -/
  | help
  /-- A switch: present or not. -/
  | flag
  /-- One value; a repeated option keeps the last. -/
  | single
  /-- One value per occurrence, all kept. -/
  | repeated
deriving DecidableEq

/-- An option: its names as declared, the field it sets and what it does. -/
structure OptionSpec where
  names : List String
  field : String
  action : Action
  help : Option String := none
  /-- Whether its values must be written integers. -/
  integer : Bool := false

namespace OptionSpec

/-- Whether the option takes a value. -/
def takesValue (o : OptionSpec) : Bool := o.action == .single || o.action == .repeated

/-- How the option is named in messages: its names joined by slashes. -/
def shown (o : OptionSpec) : String := "/".intercalate o.names

/-- The placeholder of its value: the field in capitals. -/
def metavar (o : OptionSpec) : String := o.field.map Char.toUpper

end OptionSpec

/-- What follows the options of a parser. -/
inductive Rest where
  /-- One positional argument, with its help. -/
  | positional (name help : String)
  /-- The choice of a task, each with its help; the words after the choice
  belong to the task. -/
  | tasks (choices : List (String × String))

/-- A parser: its program name, description, options and what follows them. -/
structure ParserSpec where
  prog : String
  description : Option String := none
  options : List OptionSpec
  rest : Rest

/-- A word as a parser classifies it. -/
inductive Word where
  /-- A value. -/
  | value (text : String)
  /-- The first `--`: every later word is a value. -/
  | separator
  /-- An option, known or not, with the name it was given by and an attached
  value. -/
  | option (spec : Option OptionSpec) (text name : String) (attached : Option String)

/-- The text of a word. -/
def Word.text : Word → String
  | .value t => t
  | .separator => "--"
  | .option _ t _ _ => t

/-- Whether a word is an option. -/
def Word.isOption : Word → Bool
  | .option .. => true
  | _ => false

/-- Whether a word is written like a negative number: a dash, decimal digits,
and an optional fraction (or a dash and a fraction alone), optionally followed
by one line end. -/
def isNegativeNumber (w : String) : Bool :=
  let cs := match w.toList.reverse with
    | '\n' :: r => r.reverse
    | _ => w.toList
  let isDigit (c : Char) : Bool := (Text.decimalValue? c).isSome
  match cs with
  | '-' :: rest =>
    match rest.dropWhile isDigit with
    | [] => !rest.isEmpty
    | '.' :: ds => !ds.isEmpty && ds.all isDigit
    | _ => false
  | _ => false

/-- A text cut at its first `=`: what stands before and after it. -/
def cutAtEquals (w : String) : Option (String × String) :=
  match w.toList.span (· != '=') with
  | (before, '=' :: after) => some (String.ofList before, String.ofList after)
  | _ => none

namespace ParserSpec

/-- Every name of every option, in order, with its option. -/
def table (p : ParserSpec) : List (String × OptionSpec) :=
  p.options.flatMap fun o => o.names.map (·, o)

/-- The option of a name. -/
def lookup (p : ParserSpec) (name : String) : Option OptionSpec :=
  (p.table.find? (·.1 == name)).map (·.2)

/-- The options a dashed word may stand for: for `--` words, the long names
it is a prefix of (before any `=`); for a single dash, the short name of its
first two characters with the rest attached, and the names it is a prefix of. -/
def candidates (p : ParserSpec) (w : String) : List (OptionSpec × String × Option String) :=
  if w.startsWith "--" then
    let (pre, attached) := match cutAtEquals w with
      | some (b, a) => (b, some a)
      | none => (w, none)
    p.table.filterMap fun (name, o) => if name.startsWith pre then some (o, name, attached) else none
  else
    let short := String.ofList (w.toList.take 2)
    let rest := String.ofList (w.toList.drop 2)
    p.table.filterMap fun (name, o) =>
      if name == short then some (o, name, some rest)
      else if name.startsWith w then some (o, name, none)
      else none

/-- Classify one word that is not `--`. -/
def classifyWord (p : ParserSpec) (w : String) : Except String Word :=
  match w.toList with
  | [] => .ok (.value w)
  | c :: rest =>
    if c != '-' then .ok (.value w)
    else match p.lookup w with
    | some o => .ok (.option (some o) w w none)
    | none =>
      if rest.isEmpty then .ok (.value w)
      else
        let byEquals := (cutAtEquals w).bind fun (name, a) =>
          (p.lookup name).map fun o => Word.option (some o) w name (some a)
        match byEquals with
        | some word => .ok word
        | none =>
          match p.candidates w with
          | [(o, name, attached)] => .ok (.option (some o) w name attached)
          | [] =>
            if isNegativeNumber w || w.contains ' ' then .ok (.value w)
            else .ok (.option none w w none)
          | several => .error ("ambiguous option: " ++ w ++ " could match " ++
              ", ".intercalate (several.map (·.2.1)))

/-- Classify every word; after the first `--` all are values. -/
def classify (p : ParserSpec) : List String → Except String (List Word)
  | [] => .ok []
  | "--" :: rest => .ok (.separator :: rest.map Word.value)
  | w :: rest => do return (← p.classifyWord w) :: (← p.classify rest)

end ParserSpec

/-- Why a reading stopped. -/
inductive Stop where
  /-- The help switch was given. -/
  | help
  /-- The words do not fit, for this reason. -/
  | error (message : String)

/-- What a reading found. -/
structure Reading where
  /-- The options given, by field, in order; a switch has the empty value. -/
  values : List (String × String) := []
  /-- The positional argument. -/
  positional : Option String := none
  /-- The words from the task's name on. -/
  task : Option (List String) := none
  /-- Words nothing takes. -/
  extras : List String := []

/-- One use of an option, with its value when it takes one. -/
structure Occurrence where
  spec : OptionSpec
  value : Option String

/-- The uses a dashed word stands for: the option it names with its attached
value; a short switch with letters attached goes on to the short option of the
next letter. The last use is returned apart when it takes its value from the
next word. -/
def expand (p : ParserSpec) : Nat → OptionSpec → String → Option String →
    Except String (List Occurrence × Option OptionSpec)
  | 0, o, _, _ => .ok ([], some o)
  | fuel + 1, o, name, attached =>
    match attached with
    | none => if o.takesValue then .ok ([], some o) else .ok ([⟨o, none⟩], none)
    | some a =>
      if o.takesValue then .ok ([⟨o, some a⟩], none)
      else
        let ignored : Except String (List Occurrence × Option OptionSpec) :=
          .error ("argument " ++ o.shown ++ ": ignored explicit argument " ++ Json.quoteLiteral a)
        match name.toList, a.toList with
        | [_, second], first :: more =>
          if second == '-' then ignored
          else match p.lookup ("-" ++ String.singleton first) with
            | some next => do
              let (uses, last) ← expand p fuel next ("-" ++ String.singleton first)
                (if more.isEmpty then none else some (String.ofList more))
              return (⟨o, none⟩ :: uses, last)
            | none => ignored
        | _, _ => ignored

/-- Take one use of an option. -/
def take (r : Reading) (u : Occurrence) : Except Stop Reading :=
  match u.spec.action with
  | .help => .error .help
  | .flag => .ok { r with values := r.values ++ [(u.spec.field, "")] }
  | _ =>
    let v := u.value.getD ""
    if u.spec.integer && (Decimal.readInteger v).toOption.isNone then
      .error (.error ("argument " ++ u.spec.shown ++ ": invalid int value: " ++ Json.quoteLiteral v))
    else .ok { r with values := r.values ++ [(u.spec.field, v)] }

/-- The texts of the words from `i` up to `j`. -/
def textsBetween (ws : Array Word) (i j : Nat) : List String :=
  ((ws.toList.drop i).take (j - i)).map Word.text

/-- Take the option word at `i` and the value it needs; the reading and the
index after them. An unknown option is an extra. -/
def consumeOption (p : ParserSpec) (ws : Array Word) (r : Reading) (i : Nat) :
    Except Stop (Reading × Nat) :=
  match ws[i]? with
  | some (.option (some o) _ name attached) => do
    let (uses, last) ← (expand p (name.length + (attached.map String.length).getD 0 + 1) o name attached).mapError .error
    let (uses, next) ← match last with
      | none => pure (uses, i + 1)
      | some o' => match ws[i + 1]? with
        | some (.value v) => pure (uses ++ [⟨o', some v⟩], i + 2)
        | _ => throw (.error ("argument " ++ o'.shown ++ ": expected one argument"))
    let r ← uses.foldlM take r
    return (r, next)
  | some w => .ok ({ r with extras := r.extras ++ [w.text] }, i + 1)
  | none => .ok (r, i + 1)

/-- Fill what follows the options from index `i`, if the words there fit it:
the positional argument takes one value, with a `--` before or after it; the
choice of a task takes a value (after an optional `--`) and every word after
it. -/
def consumePositional (p : ParserSpec) (ws : Array Word) (r : Reading) (i : Nat) : Reading × Nat :=
  let sepAt (k : Nat) : Bool := match ws[k]? with
    | some .separator => true
    | _ => false
  let start := if sepAt i then i + 1 else i
  match p.rest with
  | .positional _ _ =>
    if r.positional.isSome then (r, i)
    else match ws[start]? with
      | some (.value v) =>
        let stop := if sepAt (start + 1) then start + 2 else start + 1
        ({ r with positional := some v }, stop)
      | _ => (r, i)
  | .tasks _ =>
    if r.task.isSome then (r, i)
    else match ws[start]? with
      | some (.value _) => ({ r with task := some (textsBetween ws i ws.size) }, ws.size)
      | _ => (r, i)

/-- The first option word at or after `i`. -/
def nextOption (ws : Array Word) (i : Nat) : Option Nat :=
  ((List.range ws.size).drop i).find? fun k => (ws[k]?.map Word.isOption).getD false

/-- Take words from index `i` while an option lies ahead: values before it fill
what follows the options or else are extras, then the option is taken. -/
def consume (p : ParserSpec) (ws : Array Word) : Nat → Reading → Nat → Except Stop (Reading × Nat)
  | 0, r, i => .ok (r, i)
  | fuel + 1, r, i =>
    match nextOption ws i with
    | none => .ok (r, i)
    | some k =>
      if i == k then do
        let (r, j) ← consumeOption p ws r k
        consume p ws fuel r j
      else
        let (r', j) := consumePositional p ws r i
        if i < j then consume p ws fuel r' j
        else do
          let (r, j) ← consumeOption p ws { r with extras := r.extras ++ textsBetween ws i k } k
          consume p ws fuel r j

/-- Read the words. -/
def ParserSpec.read (p : ParserSpec) (words : List String) : Except Stop Reading := do
  let ws := (← (p.classify words).mapError Stop.error).toArray
  let (r, i) ← consume p ws (ws.size + 1) {} 0
  let (r, j) := consumePositional p ws r i
  let r := { r with extras := r.extras ++ textsBetween ws j ws.size }
  match p.rest, r.positional with
  | .positional name _, none => throw (.error ("the following arguments are required: " ++ name))
  | _, _ => return r

end Arguments

end NodeFlow
