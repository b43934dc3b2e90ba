import DecoderGen.Resolved

/-! # Overlapping rules

Two enabled rules overlap when some input satisfies both patterns. The order of the table decides
which of them wins, so an overlap is no error by itself; but a rule that an earlier one covers can
never win.
-/

namespace DecoderGen

/-- A pair of rules that some input satisfies. -/
structure Overlap where
  earlier : String
  earlierPosition : Nat
  later : String
  laterPosition : Nat
  /-- An input that satisfies both rules. -/
  witness : Input
  /-- Whether the earlier rule takes every input of the later one. -/
  shadowed : Bool
deriving DecidableEq, Repr

namespace Overlap

/-- The wording of an overlap. -/
def message (overlap : Overlap) : String :=
  s!"rule `{overlap.later}` (#{overlap.laterPosition}) overlaps earlier rule " ++
  s!"`{overlap.earlier}` (#{overlap.earlierPosition}), e.g. input {overlap.witness.text}" ++
  (if overlap.shadowed then "; it is fully shadowed and can never match" else "")

/-- The wording of overlaps that are refused, one a line under their number. -/
def listing (overlaps : List Overlap) : String :=
  s!"{overlaps.length} overlapping rule pair(s) rejected in strict mode:" ++
    String.join (overlaps.map fun overlap => "\n  - " ++ overlap.message)

/-- The overlap of a rule with an earlier one, if there is any. -/
def ofRules? (later earlier : ResolvedRule) : Option Overlap :=
  (earlier.pattern.commonInput? later.pattern).map fun witness =>
    { earlier := earlier.rule.name
      earlierPosition := earlier.position
      later := later.rule.name
      laterPosition := later.position
      witness
      shadowed := earlier.pattern.covers later.pattern }

/-- The overlaps of rules with the rules before them, ordered by the later and then by the earlier
rule of each pair. -/
def among (before : List ResolvedRule) : List ResolvedRule → List Overlap
  | [] => []
  | later :: rest => before.filterMap (ofRules? later) ++ among (before ++ [later]) rest

/-- Keep one of each run of equal neighbours. -/
def collapse : List String → List String
  | [] => []
  | [name] => [name]
  | first :: second :: rest =>
    if first = second then collapse (second :: rest) else first :: collapse (second :: rest)

/-- The rules that can never win, by name; a name that follows itself is given once. -/
def shadowedNames (overlaps : List Overlap) : List String :=
  collapse ((overlaps.filter (·.shadowed)).map (·.later))

/-- A warning for each overlap. -/
def events (overlaps : List Overlap) : List Event :=
  overlaps.map fun overlap => ⟨.warn, .analysis, overlap.message⟩

end Overlap

/-- All overlaps among the enabled rules of a table. -/
def Resolved.overlaps (resolved : Resolved) : List Overlap := Overlap.among [] resolved.enabledRules

end DecoderGen
