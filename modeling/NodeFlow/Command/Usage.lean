import NodeFlow.Command.Arguments
/-!
# Usage and help text

The usage line of a parser lists its options, each as `[name VALUE]` by its
first name, then what follows them. It is written for a width of 78 columns:
when `usage: ` and the line do not fit, the parts are filled onto lines, the
options first and what follows them on lines of their own, all indented to
stand after the program name (or under `usage: ` when the name is long).

The help text is the usage, the description, and two sections: the
positional arguments and the options. Each entry shows how it is written and
its help from column 24 on; an entry too wide for that has its help on the
next line. The choices of a task are listed under it, indented further.
-/

namespace NodeFlow

namespace Arguments

/-- The width text is written for. -/
def textWidth : Nat := 78

/-- The column help starts at, at most. -/
def maxHelpPosition : Nat := 24

/-- `n` spaces. -/
def spaces (n : Nat) : String := String.ofList (List.replicate n ' ')

/-- Fill parts onto lines, joined by spaces, starting a new line when a part
would pass the width. Every line is indented; with `firstStart`, the first line
starts after that many columns and carries no indent. -/
def fillLines (parts : List String) (indent : Nat) (firstStart : Option Nat) : List String :=
  let rec go : List String → List String → Nat → List String → List String
    | [], line, _, acc => if line.isEmpty then acc else acc ++ [spaces indent ++ " ".intercalate line]
    | part :: rest, line, len, acc =>
      if textWidth < len + 1 + part.length && !line.isEmpty then
        go rest [part] (indent + part.length) (acc ++ [spaces indent ++ " ".intercalate line])
      else go rest (line ++ [part]) (len + part.length + 1) acc
  let lines := go parts [] ((firstStart.getD indent) - 1) []
  match firstStart, lines with
  | some _, first :: more => String.ofList (first.toList.drop indent) :: more
  | _, ls => ls

/-- Words filled onto lines of at most `width` columns. -/
def wrapWords (text : String) (width : Nat) : List String :=
  let words := (text.splitOn " ").filter (!·.isEmpty)
  let rec go : List String → String → List String → List String
    | [], line, acc => if line.isEmpty then acc else acc ++ [line]
    | w :: rest, line, acc =>
      if line.isEmpty then go rest w acc
      else if width < line.length + 1 + w.length then go rest w (acc ++ [line])
      else go rest (line ++ " " ++ w) acc
  go words "" []

namespace ParserSpec

/-- The usage parts of the options. -/
def optionParts (p : ParserSpec) : List String :=
  p.options.map fun o =>
    "[" ++ o.names.headD "" ++ (if o.takesValue then " " ++ o.metavar else "") ++ "]"

/-- How the choice of a task is written: `{a,b,c}`. -/
def choicesText (choices : List (String × String)) : String :=
  "\x7b" ++ ",".intercalate (choices.map (·.1)) ++ "\x7d"

/-- The usage parts of what follows the options. -/
def positionalParts (p : ParserSpec) : List String :=
  match p.rest with
  | .positional name _ => [name]
  | .tasks choices => [choicesText choices, "..."]

/-- The usage text, `usage: ` and the parts, ending with a line end. -/
def usage (p : ParserSpec) : String :=
  let lead := "usage: "
  let opt := p.optionParts
  let pos := p.positionalParts
  let oneLine := " ".intercalate (p.prog :: opt ++ pos)
  let body :=
    if lead.length + oneLine.length ≤ textWidth then oneLine
    else if 4 * (lead.length + p.prog.length) ≤ 3 * textWidth then
      let indent := lead.length + p.prog.length + 1
      let lines :=
        if !opt.isEmpty then fillLines (p.prog :: opt) indent (some lead.length) ++ fillLines pos indent none
        else if !pos.isEmpty then fillLines (p.prog :: pos) indent (some lead.length)
        else [p.prog]
      "\n".intercalate lines
    else
      let indent := lead.length
      let together := fillLines (opt ++ pos) indent none
      let lines := if 1 < together.length then fillLines opt indent none ++ fillLines pos indent none
        else together
      "\n".intercalate (p.prog :: lines)
  lead ++ body ++ "\n"

end ParserSpec

/-- An entry of the help: how it is written, its help, and its indent. -/
structure HelpEntry where
  invocation : String
  help : Option String
  indent : Nat

/-- How an option is written in the help: each name, with the placeholder of
its value when it takes one. -/
def OptionSpec.invocation (o : OptionSpec) : String :=
  if o.takesValue then ", ".intercalate (o.names.map (· ++ " " ++ o.metavar))
  else ", ".intercalate o.names

namespace ParserSpec

/-- The entries of the positional arguments. -/
def positionalEntries (p : ParserSpec) : List HelpEntry :=
  match p.rest with
  | .positional name help => [⟨name, some help, 2⟩]
  | .tasks choices => ⟨choicesText choices, none, 2⟩ :: choices.map fun (n, h) => ⟨n, some h, 4⟩

/-- The entries of the options. -/
def optionEntries (p : ParserSpec) : List HelpEntry :=
  p.options.map fun o => ⟨o.invocation, o.help, 2⟩

/-- The column help starts at: two past the widest entry with its indent, at
most `maxHelpPosition`. -/
def helpPosition (p : ParserSpec) : Nat :=
  let widest := (p.positionalEntries ++ p.optionEntries).foldl
    (fun m e => max m (e.invocation.length + e.indent)) 0
  min (widest + 2) maxHelpPosition

/-- One entry of the help, as lines each ending with a line end. -/
def entryText (p : ParserSpec) (e : HelpEntry) : String :=
  let column := p.helpPosition
  match e.help with
  | none => spaces e.indent ++ e.invocation ++ "\n"
  | some h =>
    let lines := wrapWords h (max (textWidth - column) 11)
    let later := String.join ((lines.drop 1).map fun l => spaces column ++ l ++ "\n")
    let first := lines.headD ""
    let room := column - e.indent - 2
    if e.invocation.length ≤ room then
      spaces e.indent ++ e.invocation ++ spaces (room - e.invocation.length) ++ "  " ++ first ++ "\n" ++ later
    else spaces e.indent ++ e.invocation ++ "\n" ++ spaces column ++ first ++ "\n" ++ later

/-- A section of the help, without its last line end; none when it is empty. -/
def sectionText (p : ParserSpec) (title : String) (entries : List HelpEntry) : List String :=
  if entries.isEmpty then []
  else
    let body := String.join (entries.map p.entryText)
    [title ++ ":\n" ++ String.ofList (body.toList.dropLast)]

/-- The help text: usage, description and sections, a blank line between them. -/
def helpText (p : ParserSpec) : String :=
  let blocks := [String.ofList p.usage.toList.dropLast] ++
    (p.description.map fun d => "\n".intercalate (wrapWords d textWidth)).toList ++
    p.sectionText "positional arguments" p.positionalEntries ++ p.sectionText "options" p.optionEntries
  "\n\n".intercalate blocks ++ "\n"

end ParserSpec

end Arguments

end NodeFlow
