import NodeFlow.Chain.Selection
import NodeFlow.Decimal.Lenient
import NodeFlow.Json.Access
/-!
# Submission requests

A submission names the values for the template's placeholders, per-node input
overrides, a seed (or a request for a random one) and up to three modifier
chains. `Request.ofFields` checks the named parameters of a submission the way
a validated record does: every field is read, all failed checks are collected
in field order with their paths, and then every unknown parameter is reported.

Numbers are read leniently (`Decimal.Lenient`): a seed may be written as text
or as a whole double of the 64-bit range, and a flag may be `0`, `1` or a
yes/no word. The seed must lie in `0 ..= maxSeed`, the largest integer a double
holds exactly.
-/

namespace NodeFlow

open Json

/-- The largest seed: `2 ^ 53 - 1`. -/
def maxSeed : Int := ((Nat.pow 2 53 : Nat) : Int) - 1

/-- A checked submission. -/
structure Request where
  values : Fields := []
  overrides : List (String × Fields) := []
  seed : Option Int := none
  randomizeSeed : Bool := false
  modifierChain : Chain := []
  highNoiseChain : Chain := []
  lowNoiseChain : Chain := []

namespace Request

/-- The name of the record a submission is checked as. -/
def recordName : String := "PrepareRequest"

/-- The parameter names of a submission, in the order they are checked. -/
def parameterNames : List String :=
  ["values", "overrides", "seed", "randomize_seed", "modifier_chain", "high_noise_chain", "low_noise_chain"]

/-- The bound, exclusive on both sides, of a whole double read as an integer:
`2 ^ 63`. -/
def wordBound : Int := ((Nat.pow 2 63 : Nat) : Int)

/-- A lenient integer: integers, booleans, whole doubles strictly between
`-2 ^ 63` and `2 ^ 63`, and written integers. -/
def readInteger : Value → Except IssueKind Int
  | .int n => .ok n
  | .bool b => .ok (if b then 1 else 0)
  | .float x =>
    if x.isSpecial then .error .finiteNumber
    else match x.toInt? with
      | some n => if -wordBound < n ∧ n < wordBound then .ok n else .error .intParsingSize
      | none => .error .intFromFloat
  | .str t =>
    if Text.hasSurrogate t then .error .stringUnicode
    else match Decimal.lenientInt t with
      | .value n => .ok n
      | .tooLong _ => .error .intParsingSize
      | .invalid => .error .intParsing
  | _ => .error .intType

/-- The flag an integer stands for: only zero and one stand for one. -/
def flagOfInt (n : Int) : Except IssueKind Bool :=
  if n == 0 then .ok false else if n == 1 then .ok true else .error .boolParsing

/-- A lenient flag: booleans, zero and one (also as whole doubles) and the words
for yes and no, as `Decimal.lenientFlag?` reads them. -/
def readFlag : Value → Except IssueKind Bool
  | .bool b => .ok b
  | .int n => flagOfInt n
  | .float x => match x.toInt? with
    | some n => flagOfInt n
    | none => .error .boolType
  | .str t =>
    if Text.hasSurrogate t then .error .stringUnicode
    else match Decimal.lenientFlag? t with
      | some b => .ok b
      | none => .error .boolParsing
  | _ => .error .boolType

/-- A checked chain: a list of selection objects. -/
def readChain (s : Settings) (name : String) : Value → Except (List Issue) Chain
  | .arr items =>
    let results : List (Except (List Issue) Selection) := items.zipIdx.map fun (item, i) =>
      match item with
      | .obj fs => match Selection.ofFields s fs with
        | .ok sel => .ok sel
        | .error (.invalid _ issues) =>
          .error (issues.map fun is => { is with loc := [name, toString i] ++ is.loc })
        | .error _ => .error []
      | _ => .error [⟨[name, toString i], .modelType Selection.recordName, item⟩]
    let issues := results.flatMap fun
      | .error is => is
      | .ok _ => []
    if issues.isEmpty then .ok (results.filterMap fun
      | .ok sel => some sel
      | .error _ => none)
    else .error issues
  | v => .error [⟨[name], .listType, v⟩]

/-- Checked overrides: an object whose members are objects. -/
def readOverrides : Value → Except (List Issue) (List (String × Fields))
  | .obj entries =>
    let issues := entries.filterMap fun (k, v) =>
      if v.isObj then none else some (⟨["overrides", k], .dictType, v⟩ : Issue)
    if issues.isEmpty then .ok (entries.map fun (k, v) => (k, v.fields?.getD [])) else .error issues
  | v => .error [⟨["overrides"], .dictType, v⟩]

/-- Read one parameter when given, collecting its issues. -/
def field {α : Type} (params : Fields) (name : String) (fallback : α)
    (read : Value → Except (List Issue) α) (issues : List Issue) : α × List Issue :=
  match Fields.get? params name with
  | none => (fallback, issues)
  | some v => match read v with
    | .ok a => (a, issues)
    | .error is => (fallback, issues ++ is)

/-- Read a parameter with a check of one kind, reporting it under the
parameter's name. -/
def named {α : Type} (name : String) (read : Value → Except IssueKind α) (v : Value) :
    Except (List Issue) α :=
  (read v).mapError fun k => [⟨[name], k, v⟩]

/-- A seed: null for none, otherwise a lenient integer in `0 ..= maxSeed`. -/
def readSeed : Value → Except IssueKind (Option Int)
  | .null => .ok none
  | v => do
    let n ← readInteger v
    if n < 0 then throw (.greaterThanEqual 0)
    if maxSeed < n then throw (.lessThanEqual maxSeed)
    return some n

/-- A checked submission from its named parameters. -/
def ofFields (s : Settings) (params : Fields) : Outcome Request :=
  let (values, issues) := field params "values" [] (fun v => match v with
    | .obj fs => .ok fs
    | v => .error [⟨["values"], .dictType, v⟩]) []
  let (overrides, issues) := field params "overrides" [] readOverrides issues
  let (seed, issues) := field params "seed" none (named "seed" readSeed) issues
  let (randomize, issues) := field params "randomize_seed" false (named "randomize_seed" readFlag) issues
  let (modifier, issues) := field params "modifier_chain" [] (readChain s "modifier_chain") issues
  let (high, issues) := field params "high_noise_chain" [] (readChain s "high_noise_chain") issues
  let (low, issues) := field params "low_noise_chain" [] (readChain s "low_noise_chain") issues
  let extra := (params.filter fun p => !parameterNames.contains p.1).map fun p =>
    (⟨[p.1], .extraForbidden, p.2⟩ : Issue)
  let issues := issues ++ extra
  if issues.isEmpty then
    .ok { values := values, overrides := overrides, seed := seed, randomizeSeed := randomize,
          modifierChain := modifier, highNoiseChain := high, lowNoiseChain := low }
  else .error (.invalid recordName issues)

end Request

end NodeFlow
