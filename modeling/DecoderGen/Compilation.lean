import DecoderGen.Overlap
import DecoderGen.SystemVerilog.Decoder

/-! # Compiling a table

A table is compiled in stages: the style is checked against the table, the table is resolved, its
overlaps are found and in strict mode refused, the backend makes the logic, and the files are
generated. The first stage that fails decides the outcome, and then nothing is generated.
-/

namespace DecoderGen

/-- The result of compiling a table. -/
structure Compilation where
  logic : Logic
  artifacts : Artifacts
  /-- The overlaps that were tolerated. -/
  overlaps : List Overlap
deriving DecidableEq, Repr

/-- Why a table is not compiled. -/
inductive CompileFault where
  | config (fault : ConfigFault)
  | rules (faults : List RuleFault)
  | overlaps (found : List Overlap)
  | backend (fault : BackendFault)
deriving DecidableEq, Repr

/-- The wording of a compile fault. -/
def CompileFault.message : CompileFault → String
  | .config fault => fault.message
  | .rules faults => RuleFault.listing faults
  | .overlaps found => Overlap.listing found
  | .backend fault => fault.message

namespace Resolved

/-- Make the logic of a resolved table and generate its files. -/
def generate (resolved : Resolved) (config : Config) : Except CompileFault Compilation :=
  match config.backend.compile resolved with
  | .error fault => .error (.backend fault)
  | .ok logic =>
    .ok { logic
          artifacts := Artifacts.generate resolved.table logic config.style
          overlaps := resolved.overlaps }

/-- Refuse overlaps in strict mode, then generate. -/
def compile (resolved : Resolved) (config : Config) : Except CompileFault Compilation :=
  if config.strict ∧ resolved.overlaps ≠ [] then .error (.overlaps resolved.overlaps)
  else resolved.generate config

/-- What is reported when a resolved table is compiled. -/
def compileEvents (resolved : Resolved) (config : Config) : List Event :=
  if config.strict ∧ resolved.overlaps ≠ [] then []
  else
    Overlap.events resolved.overlaps ++ config.backend.compileEvents resolved ++
    match resolved.generate config with
    | .error _ => []
    | .ok compilation =>
      [compilation.artifacts.event,
        ⟨.debug, .program,
          s!"compiled `{resolved.table.moduleName}`: {compilation.logic.guards.length} guard(s), " ++
          s!"{compilation.overlaps.length} overlap(s)"⟩]

end Resolved

namespace Table

/-- Compile a table. -/
def compile (table : Table) (config : Config) : Except CompileFault Compilation :=
  match config.style.fault? table with
  | some fault => .error (.config fault)
  | none =>
    match table.resolve with
    | .error faults => .error (.rules faults)
    | .ok resolved => resolved.compile config

/-- What is reported when a table is compiled. -/
def compileEvents (table : Table) (config : Config) : List Event :=
  match config.style.fault? table with
  | some _ => []
  | none =>
    table.resolveEvents ++
    match table.resolve with
    | .error _ => []
    | .ok resolved => resolved.compileEvents config

end Table
end DecoderGen
