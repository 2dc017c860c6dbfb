import NodeFlow.Json.Value
import NodeFlow.Text.CaseMap
import NodeFlow.Text.Surrogate
/-!
# Node types

A schema describes each node class a server offers: its declared inputs, with
the required ones first and then the optional ones in the server's order, and
its outputs. An input whose type (in any case) is one of the link types, or
that is marked to be fed by a link, takes no widget value; every other input is
a widget.

Lookups of a class the schema does not know give `none`, so that callers can
degrade to warnings.
-/

namespace NodeFlow

open Json

/-- Slot types that only a link can feed, never a widget value. -/
def linkTypes : List String :=
  ["MODEL", "CLIP", "VAE", "CONDITIONING", "LATENT", "IMAGE", "MASK", "CONTROL_NET",
    "STYLE_MODEL", "CLIP_VISION", "CLIP_VISION_OUTPUT", "GLIGEN", "UPSCALE_MODEL", "SAMPLER",
    "SIGMAS", "NOISE", "GUIDER", "*"]

/-- The type of inputs and outputs that choose from a list of options. -/
def enumType : String := "ENUM"

/-- A declared input of a node class. -/
structure InputDecl where
  name : String
  type : String
  required : Bool := true
  default : Value := .null
  min : Value := .null
  max : Value := .null
  step : Value := .null
  options : List Value := []
  multiline : Bool := false
  forceInput : Bool := false
  tooltip : Value := .null

/-- Only a link can feed the input. -/
def InputDecl.linkOnly (d : InputDecl) : Bool :=
  d.forceInput || linkTypes.contains (Text.toUpper d.type)

/-- A widget gives the input its value. -/
def InputDecl.isWidget (d : InputDecl) : Bool := !d.linkOnly

/-- A declared output of a node class. -/
structure OutputDecl where
  name : String
  type : String
deriving DecidableEq, Repr

/-- What a schema knows of one node class. -/
structure NodeType where
  classType : String
  inputs : List InputDecl := []
  outputs : List OutputDecl := []
  category : Value := .null
  displayName : Value := .null

namespace NodeType

/-- The first declared input with a name. -/
def input? (t : NodeType) (name : String) : Option InputDecl := t.inputs.find? (·.name == name)

/-- The widget inputs, in declaration order. -/
def widgetInputs (t : NodeType) : List InputDecl := t.inputs.filter InputDecl.isWidget

/-- The output types, in order. -/
def outputTypes (t : NodeType) : List String := t.outputs.map (·.type)

end NodeType

/-- The node classes a server offers, in the order it listed them, each class
type once. -/
structure Schema where
  types : List NodeType := []

namespace Schema

/-- The schema that knows no class. -/
def empty : Schema := ⟨[]⟩

/-- The number of known classes. -/
def size (s : Schema) : Nat := s.types.length

/-- What the schema knows of a class type. -/
def find? (s : Schema) (classType : String) : Option NodeType :=
  s.types.find? (·.classType == classType)

/-- Whether the schema knows a class type. -/
def has (s : Schema) (classType : String) : Bool := s.types.any (·.classType == classType)

/-- The known class types, sorted. -/
def classTypes (s : Schema) : List String :=
  (s.types.map (·.classType)).mergeSort Text.codeLE

/-- The declared type of an input of a class. -/
def inputType? (s : Schema) (classType name : String) : Option String :=
  (s.find? classType).bind fun t => (t.input? name).map (·.type)

/-- The declared type of an output of a class, by position. -/
def outputType? (s : Schema) (classType : String) (index : Int) : Option String :=
  (s.find? classType).bind fun t =>
    if 0 ≤ index then (t.outputs[index.toNat]?).map (·.type) else none

/-- The options of an input of a class; empty when none are declared. -/
def optionsFor (s : Schema) (classType name : String) : List Value :=
  match s.find? classType with
  | some t => ((t.input? name).map (·.options)).getD []
  | none => []

end Schema

end NodeFlow
