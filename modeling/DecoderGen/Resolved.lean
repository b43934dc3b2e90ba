import DecoderGen.Event
import DecoderGen.Pattern
import DecoderGen.Table

/-! # Resolved tables

A table is resolved by reading each pattern and replacing the names of asserted fields by their
positions in the output. Every illegal symbol and every undefined field of every rule is a fault,
whether the rule is enabled or not; all faults are reported together, in table order and for each
rule symbols before fields.
-/

namespace DecoderGen

/-- A violation inside one rule. -/
inductive RuleFault where
  | badSymbol (rule : String) (bad : BadSymbol)
  | undefinedField (rule field : String)
deriving DecidableEq, Repr

namespace RuleFault

/-- The name of the rule at fault. -/
def rule : RuleFault → String
  | .badSymbol rule _ => rule
  | .undefinedField rule _ => rule

/-- The wording of a rule fault. -/
def message : RuleFault → String
  | .badSymbol rule bad =>
    s!"rule `{rule}`: invalid symbol `{bad.symbol}` at position {bad.position} (expected 0, 1 or .)"
  | .undefinedField rule field => s!"rule `{rule}`: field `{field}` is not defined in the output"

/-- The wording of several rule faults, one a line under their number. -/
def listing (faults : List RuleFault) : String :=
  s!"table validation failed with {faults.length} error(s):" ++
    String.join (faults.map fun fault => "\n  - " ++ fault.message)

end RuleFault

/-- The faults of one rule: illegal symbols by position, then undefined fields in source order. -/
def Rule.faults (schema : Schema) (rule : Rule) : List RuleFault :=
  (Pattern.badSymbols 0 rule.pattern.toList).map (.badSymbol rule.name) ++
    (rule.asserted.filter fun field => (schema.fieldIndex? field).isNone).map
      (.undefinedField rule.name)

/-- The faults of all rules in table order. -/
def Table.ruleFaults (table : Table) : List RuleFault :=
  table.rules.flatMap (Rule.faults table.output)

/-- A rule with its pattern read and its fields located. -/
structure ResolvedRule where
  /-- The place of the rule in its table, which is its priority. -/
  position : Nat
  rule : Rule
  pattern : Pattern
  /-- The output positions of the asserted fields in source order, repetitions included. -/
  fields : List Nat
deriving DecidableEq, Repr

/-- Read the pattern of a rule and locate its fields. -/
def Rule.resolve (schema : Schema) (position : Nat) (rule : Rule) : ResolvedRule where
  position
  rule
  pattern := Pattern.ofSymbols rule.pattern.toList
  fields := rule.asserted.filterMap schema.fieldIndex?

/-- A table without rule faults. -/
structure Resolved where
  table : Table
  noFaults : table.ruleFaults = []

namespace Resolved

/-- All rules in table order. -/
def rules (resolved : Resolved) : List ResolvedRule :=
  resolved.table.rules.mapIdx (Rule.resolve resolved.table.output)

/-- The rules that take part in decoding, in table order. -/
def enabledRules (resolved : Resolved) : List ResolvedRule :=
  resolved.rules.filter (·.rule.enabled)

end Resolved

namespace Table

/-- Resolve a table, or report all of its rule faults. -/
def resolve (table : Table) : Except (List RuleFault) Resolved :=
  match found : table.ruleFaults with
  | [] => .ok ⟨table, found⟩
  | fault :: rest => .error (fault :: rest)

/-- What is reported when a table is resolved. -/
def resolveEvents (table : Table) : List Event :=
  match table.ruleFaults with
  | [] => [⟨.debug, .validation,
      s!"table `{table.moduleName}` validated: {table.rules.length} rules"⟩]
  | faults => [⟨.debug, .validation,
      s!"table `{table.moduleName}`: {faults.length} validation error(s)"⟩]

end Table
end DecoderGen
