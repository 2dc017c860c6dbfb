import NodeFlow.Template.Field
/-!
# Placeholders in text

A placeholder is a name of ASCII letters, digits and underscores between
double braces. `Template.pieces` cuts a text into plain runs and placeholders,
reading from the left and taking each placeholder as soon as one starts; the
pieces joined again give the text back (`Piece.render`).

A text that is one placeholder and nothing else is a whole placeholder
(`Template.wholePlaceholder?`): substitution gives it the value itself rather
than the value's text.
-/

namespace NodeFlow

namespace Template

/-- A part of a text: a plain run or a placeholder. -/
inductive Piece where
  | plain (text : String)
  | slot (name : String)
deriving DecidableEq, Repr

/-- A character that may stand in a placeholder name. -/
def isNameChar (c : Char) : Bool := c.isAlphanum || c == '_'

/-- The text a placeholder is written as. -/
def slotText (name : String) : String := "\x7b\x7b" ++ name ++ "\x7d\x7d"

/-- The placeholder at the head of some characters: its name and what follows. -/
def slotAt : List Char → Option (String × List Char)
  | '{' :: '{' :: rest =>
    let name := rest.takeWhile isNameChar
    match name, rest.dropWhile isNameChar with
    | _ :: _, '}' :: '}' :: tail => some (String.ofList name, tail)
    | _, _ => none
  | _ => none

/-- Prepend a plain run, unless it is empty. -/
def withPlain (run : List Char) (ps : List Piece) : List Piece :=
  if run.isEmpty then ps else .plain (String.ofList run) :: ps

/-- Cut characters into pieces; `run` is the plain run read so far, and every
step reads at least one character, so `fuel` of one more than their number is
enough. -/
def piecesOfChars : Nat → List Char → List Char → List Piece
  | 0, run, _ => withPlain run []
  | _ + 1, run, [] => withPlain run []
  | fuel + 1, run, c :: cs => match slotAt (c :: cs) with
    | some (name, rest) => withPlain run (.slot name :: piecesOfChars fuel [] rest)
    | none => piecesOfChars fuel (run ++ [c]) cs

/-- The pieces of a text. -/
def pieces (text : String) : List Piece := piecesOfChars (text.length + 1) [] text.toList

/-- The text of a piece. -/
def Piece.render : Piece → String
  | .plain text => text
  | .slot name => slotText name

/-- The names of the placeholders in a text, in order. -/
def placeholderNames (text : String) : List String :=
  (pieces text).filterMap fun
    | .slot name => some name
    | .plain _ => none

/-- The name of the placeholder that is the whole text, if it is one. -/
def wholePlaceholder? (text : String) : Option String :=
  match pieces text with
  | [.slot name] => some name
  | _ => none

end Template

end NodeFlow
