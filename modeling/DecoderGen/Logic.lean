import DecoderGen.Backend
import DecoderGen.Bisection
import DecoderGen.Resolved

/-! # Match logic

The logic of a decoder is a list of guards in order of priority. A guard has a pattern and the
positions of the fields that it asserts; the first guard whose pattern accepts an input decides all
fields, and without one every field is zero.

The native backend makes one guard of each enabled rule and checks the representation of the result.
-/

namespace DecoderGen

/-- A pattern with the output fields it asserts; all other fields are cleared. -/
structure Guard where
  /-- The place in the table of the rule the guard was made of. -/
  position : Nat
  name : String
  pattern : Pattern
  /-- Output positions, ascending and without repetition. -/
  asserted : Array Nat
deriving DecidableEq, Repr

/-- Whether a guard asserts the field at a position. -/
def Guard.asserts (guard : Guard) (field : Nat) : Bool := Bisection.contains guard.asserted field

/-- The guards of a decoder with the sizes of its input and output. -/
structure Logic where
  backend : Backend
  inputWidth : Nat
  fieldCount : Nat
  guards : List Guard
deriving DecidableEq, Repr

/-- A defect in the representation of match logic. -/
inductive LogicFault where
  | emptyPattern (rule : String)
  | patternWidth (rule : String) (actual expected : Nat)
  | fieldRange (rule : String) (field count : Nat)
  | fieldOrder (rule : String)
  | tableOrder (rule : String)
deriving DecidableEq, Repr

/-- The wording of a defect. -/
def LogicFault.message : LogicFault → String
  | .emptyPattern rule => s!"rule `{rule}` has an empty pattern"
  | .patternWidth rule actual expected =>
    s!"rule `{rule}` pattern is {actual} bits wide, input is {expected}"
  | .fieldRange rule field count => s!"rule `{rule}` asserts field #{field} of {count}"
  | .fieldOrder rule => s!"rule `{rule}` asserted fields are not in schema order"
  | .tableOrder rule => s!"rule `{rule}` is out of table order"

namespace Logic

/-- The guards that assert the field at a position, in order of priority. -/
def guardsFor (logic : Logic) (field : Nat) : List Guard := logic.guards.filter (·.asserts field)

/-- The guard that decides an input. -/
def firstMatch? (logic : Logic) (input : Input) : Option Guard :=
  logic.guards.find? (·.pattern.accepts input)

/-- Set the bits at the given positions. -/
def setBits (positions : List Nat) (bits : List Bool) : List Bool :=
  positions.foldl (fun bits position => bits.set position true) bits

/-- The output fields for an input, in schema order. -/
def evaluate (logic : Logic) (input : Input) : List Bool :=
  let cleared := List.replicate logic.fieldCount false
  match logic.firstMatch? input with
  | some guard => setBits guard.asserted.toList cleared
  | none => cleared

/-- The defect of one guard that follows a guard from the given place in the table. -/
def guardFault? (logic : Logic) (last : Option Nat) (guard : Guard) : Option LogicFault :=
  if guard.pattern.bits = [] then some (.emptyPattern guard.name)
  else if guard.pattern.width ≠ logic.inputWidth then
    some (.patternWidth guard.name guard.pattern.width logic.inputWidth)
  else
    match guard.asserted.find? (logic.fieldCount ≤ ·) with
    | some field => some (.fieldRange guard.name field logic.fieldCount)
    | none =>
      if !Bisection.ascends guard.asserted.toList then some (.fieldOrder guard.name)
      else if last.any (guard.position ≤ ·) then some (.tableOrder guard.name)
      else none

/-- The first defect of guards that follow a guard from the given place in the table. -/
def guardsFault? (logic : Logic) (last : Option Nat) : List Guard → Option LogicFault
  | [] => none
  | guard :: rest =>
    (logic.guardFault? last guard).or (logic.guardsFault? (some guard.position) rest)

/-- The first defect in the representation of match logic. -/
def fault? (logic : Logic) : Option LogicFault := logic.guardsFault? none logic.guards

end Logic

/-- Put a position in its place among ascending ones, unless it is there already. -/
def insertPosition (position : Nat) : List Nat → List Nat
  | [] => [position]
  | first :: rest =>
    if position < first then position :: first :: rest
    else if position = first then first :: rest
    else first :: insertPosition position rest

/-- The given positions, ascending and without repetition. -/
def ascending (positions : List Nat) : List Nat := positions.foldr insertPosition []

/-- The guard of a rule. -/
def ResolvedRule.guard (rule : ResolvedRule) : Guard where
  position := rule.position
  name := rule.rule.name
  pattern := rule.pattern
  asserted := (ascending rule.fields).toArray

/-- Why a backend yields no logic. -/
inductive BackendFault where
  | unsupported (backend : Backend)
  | internal (fault : LogicFault)
deriving DecidableEq, Repr

/-- The wording of a backend fault. -/
def BackendFault.message : BackendFault → String
  | .unsupported backend => s!"backend `{backend.name}` is not implemented"
  | .internal fault => s!"internal invariant violated: {fault.message}"

namespace Resolved

/-- One guard per enabled rule, in table order. -/
def guards (resolved : Resolved) : List Guard := resolved.enabledRules.map ResolvedRule.guard

/-- The match logic of a table, a guard per rule. -/
def nativeLogic (resolved : Resolved) : Logic where
  backend := .native
  inputWidth := resolved.table.inputWidth
  fieldCount := resolved.table.output.fields.length
  guards := resolved.guards

end Resolved

namespace Backend

/-- Turn a resolved table into match logic. -/
def compile (backend : Backend) (resolved : Resolved) : Except BackendFault Logic :=
  match backend with
  | .native =>
    match resolved.nativeLogic.fault? with
    | some fault => .error (.internal fault)
    | none => .ok resolved.nativeLogic
  | .espresso => .error (.unsupported .espresso)

/-- The report on one guard. -/
def guardEvent (guard : Guard) : Event :=
  ⟨.trace, .nativeBackend,
    s!"guard #{guard.position} `{guard.name}`: {guard.pattern.text} -> " ++
      "[" ++ String.intercalate ", " (guard.asserted.toList.map toString) ++ "]"⟩

/-- What is reported when a backend is run. -/
def compileEvents (backend : Backend) (resolved : Resolved) : List Event :=
  ⟨.debug, .compiler,
    s!"compiling `{resolved.table.moduleName}` with {backend.name} backend"⟩ ::
  match backend with
  | .native => resolved.guards.map guardEvent
  | .espresso => [⟨.warn, .espressoBackend,
      s!"espresso backend requested for `{resolved.table.moduleName}` but is not available"⟩]

end Backend
end DecoderGen
