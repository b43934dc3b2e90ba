import DecoderGen.Proofs.CompileStages
import DecoderGen.Proofs.LegalNames
import DecoderGen.Proofs.RuleFaults

/-! # Which stage of a compilation decides

Several stages can find fault with one table and one configuration. The first of them decides: the
style, then the rules, then in strict mode the overlaps, then the backend. A table that passes them
all is compiled; since the native backend never finds a defect in its own logic, there is no further
way to fail. Strict mode refuses compilations that report an overlap and changes none that it lets
through.
-/

namespace DecoderGen

/-- The outcome of compiling a table, by the stage that decides it. Every stage is reached only if
those before it have let the table through. -/
inductive Table.Outcome (table : Table) (config : Config) : Except CompileFault Compilation → Prop
  | styleRefused {fault : ConfigFault} (refused : config.style.fault? table = some fault) :
      table.Outcome config (.error (.config fault))
  | rulesRefused {faults : List RuleFault} (suits : config.style.Suits table)
      (refused : table.resolve = .error faults) : table.Outcome config (.error (.rules faults))
  | overlapsRefused {resolved : Resolved} (suits : config.style.Suits table)
      (accepted : table.resolve = .ok resolved) (strict : config.strict = true)
      (overlapping : resolved.overlaps ≠ []) :
      table.Outcome config (.error (.overlaps resolved.overlaps))
  | backendRefused {resolved : Resolved} (suits : config.style.Suits table)
      (accepted : table.resolve = .ok resolved)
      (tolerated : config.strict = true → resolved.overlaps = [])
      (espresso : config.backend = .espresso) :
      table.Outcome config (.error (.backend (.unsupported .espresso)))
  | compiled {resolved : Resolved} (suits : config.style.Suits table)
      (accepted : table.resolve = .ok resolved)
      (tolerated : config.strict = true → resolved.overlaps = [])
      (native : config.backend = .native) :
      table.Outcome config (.ok (resolved.compilation config.style))

namespace Resolved

variable (resolved : Resolved) (config : Config)

end Resolved

namespace Table

variable {table : Table} {config : Config} {result : Except CompileFault Compilation}

section Refusals

variable (table config)

end Refusals

end Table

end DecoderGen
