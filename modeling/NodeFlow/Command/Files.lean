import NodeFlow.Json.Display
import NodeFlow.Text.Surrogate
/-!
# Files a run reads and writes

A run names files by paths. A path is first put in normal form
(`normalPath`): its empty and `.` steps are dropped and what is left is joined
by single slashes, `.` standing for no step at all; a leading `//`, and only
that, keeps both slashes. Failures name the path in that form.

A run reaches files through a `FileAccess`: the text of a path or why it
cannot be read, and why a path cannot be written. `FileTree` is such a place
held as data: a directory of files, each named by its steps, in which a
directory exists wherever some file lies below it. Looking a path up walks
its steps the way an operating system does (`FileTree.locate`): a step too
long is refused, a step inside a file finds no directory, `..` goes one
directory up. `FileTree.created` names the files that writes add to a tree.
-/

namespace NodeFlow

open Json

/-- The longest step of a path, in bytes. -/
def maxStepBytes : Nat := 255

/-- A path of this many bytes or more is too long. -/
def maxPathBytes : Nat := 4096

/-- The steps of a path: its parts between slashes, empty and `.` parts
dropped. -/
def pathSteps (p : String) : List String :=
  (p.splitOn "/").filter fun s => !s.isEmpty && s != "."

/-- The root a path starts at: none for a relative path, `/` or `//`. -/
def pathRoot (p : String) : Option String :=
  if p.startsWith "//" && !p.startsWith "///" then some "//"
  else if p.startsWith "/" then some "/"
  else none

/-- A path in normal form. -/
def normalPath (p : String) : String :=
  match pathRoot p, pathSteps p with
  | none, [] => "."
  | none, steps => "/".intercalate steps
  | some root, steps => root ++ "/".intercalate steps

/-- The text of a failure of the operating system on a path, by its number. -/
def systemErrorText (code : Nat) (path : String) : String :=
  let reason := match code with
    | 2 => "No such file or directory"
    | 13 => "Permission denied"
    | 20 => "Not a directory"
    | 21 => "Is a directory"
    | 36 => "File name too long"
    | _ => "Input/output error"
  "[Errno " ++ toString code ++ "] " ++ reason ++ ": " ++ quoteLiteral (normalPath path)

/-- The text of a path holding a NUL character, which no file can be named by. -/
def nulPathText : String := "embedded null byte"

/-- How a run reaches files. -/
structure FileAccess where
  /-- The text of a path, or why it cannot be read. -/
  read : String → Except String String
  /-- Why a path cannot be written, if it cannot. -/
  refuseWrite : String → Option String := fun _ => none

/-- What a path leads to. -/
inductive Place where
  /-- A file, with its text. -/
  | file (text : String)
  /-- A directory. -/
  | directory
  /-- Nothing: the last step names nothing in its directory. -/
  | missing
  /-- A step before the last names a file, not a directory. -/
  | notDirectory
  /-- A step names nothing and further steps follow it. -/
  | noParent
  /-- A step is longer than `maxStepBytes`. -/
  | tooLong
  /-- Outside the directory held: above it, or from the root of the system. -/
  | outside
deriving DecidableEq

/-- Files in a directory of their own, each named by its steps, with its text. -/
structure FileTree where
  files : List (List String × String)

namespace FileTree

/-- A tree of named files; names are put in normal form, and a later file of a
name replaces an earlier one. -/
def ofFiles (files : List (String × String)) : FileTree :=
  ⟨files.foldl (fun acc (name, text) =>
    let steps := pathSteps name
    if acc.any (·.1 == steps) then acc.map fun (s, t) => if s == steps then (s, text) else (s, t)
    else acc ++ [(steps, text)]) []⟩

/-- The text of the file at these steps. -/
def fileAt? (t : FileTree) (steps : List String) : Option String :=
  (t.files.find? (·.1 == steps)).map (·.2)

/-- Whether a directory stands at these steps: the top one, or one some file
lies below. -/
def isDirectory (t : FileTree) (steps : List String) : Bool :=
  steps.isEmpty || t.files.any fun (s, _) => steps.isPrefixOf s && steps.length < s.length

/-- Walk the steps left from the directory at `here`. -/
def walk (t : FileTree) : List String → List String → Place
  | here, [] => match t.fileAt? here with
    | some text => .file text
    | none => .directory
  | here, step :: rest =>
    if maxStepBytes < Text.byteLength step then .tooLong
    else if step == ".." then
      if here.isEmpty then .outside else t.walk here.dropLast rest
    else
      let next := here ++ [step]
      match t.fileAt? next with
      | some text => if rest.isEmpty then .file text else .notDirectory
      | none =>
        if t.isDirectory next then t.walk next rest
        else if rest.isEmpty then .missing
        else .noParent

/-- What a path leads to. A path from the root of the system leads outside,
except the root itself. -/
def locate (t : FileTree) (p : String) : Place :=
  match pathRoot p with
  | some _ => if (pathSteps p).isEmpty then .directory else .outside
  | none => t.walk [] (pathSteps p)

/-- Why a path cannot be opened at all, before what it leads to matters: its
normal form must encode as UTF-8 (the halves that carry a byte encoding as
that byte), hold no NUL character, and stay below `maxPathBytes`. -/
def refusePath (p : String) : Option String :=
  match Text.utf8Failure? (normalPath p) true with
  | some why => some why
  | none =>
    if p.contains '\x00' then some nulPathText
    else if maxPathBytes ≤ Text.byteLength (normalPath p) then some (systemErrorText 36 p)
    else none

/-- The text of a path, or why it cannot be read. -/
def read (t : FileTree) (p : String) : Except String String :=
  match refusePath p with
  | some why => .error why
  | none => match t.locate p with
    | .file text => .ok text
    | .directory => .error (systemErrorText 21 p)
    | .notDirectory => .error (systemErrorText 20 p)
    | .tooLong => .error (systemErrorText 36 p)
    | _ => .error (systemErrorText 2 p)

/-- Why a path cannot be written: a directory stands there, or its directory
is missing. -/
def refuseWrite (t : FileTree) (p : String) : Option String :=
  match refusePath p with
  | some why => some why
  | none => match t.locate p with
    | .directory => some (systemErrorText 21 p)
    | .notDirectory => some (systemErrorText 20 p)
    | .tooLong => some (systemErrorText 36 p)
    | .noParent => some (systemErrorText 2 p)
    | _ => none

/-- The access a tree gives, standard input standing for `-`. -/
def access (t : FileTree) (stdin : String) : FileAccess where
  read p := if p == "-" then .ok stdin else t.read p
  refuseWrite := t.refuseWrite

/-- The steps a path inside the tree ends at, each `..` taking one back. -/
def resolveSteps : List String → List String → List String
  | here, [] => here
  | here, step :: rest => resolveSteps (if step == ".." then here.dropLast else here ++ [step]) rest

/-- The files that writes add to the tree, by name in code point order: those
written inside it where no file stood before, each with its last text. -/
def created (t : FileTree) (written : List (String × String)) : List (String × String) :=
  let fresh := written.filter fun (p, _) => t.locate p == .missing
  let named := fresh.foldl (fun (acc : List (String × String)) (p, text) =>
    let name := "/".intercalate (resolveSteps [] (pathSteps p))
    (acc.filter (·.1 != name)) ++ [(name, text)]) []
  named.mergeSort fun a b => Text.codeLE a.1 b.1

end FileTree

end NodeFlow
