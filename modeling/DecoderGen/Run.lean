import DecoderGen.Compilation
import DecoderGen.Document
import DecoderGen.Writing

/-! # A complete run

Loads the table a configuration names, compiles it and writes the generated files. Nothing is written
before compilation has succeeded.
-/

namespace DecoderGen

/-- Why a run fails. -/
inductive RunFault where
  | file (failure : FileFailure)
  | document (fault : Document.Fault)
  | compile (fault : CompileFault)

namespace RunFault

/-- The wording of a failed run. -/
def message : RunFault → String
  | .file failure => failure.message
  | .document fault => fault.message
  | .compile fault => fault.message

/-- The wording of a failed run followed by that of its cause, where the two differ. -/
def withCause : RunFault → String
  | .file failure => s!"{failure.message}: {failure.fault.message}"
  | fault => fault.message

end RunFault

variable {m : Type → Type} [Monad m] [Storage m]

/-- Read a file as text. -/
def readText (path : String) : m (Except FileFailure String) := do
  match ← Storage.read path with
  | .error fault => return .error ⟨path, fault⟩
  | .ok contents =>
    match String.fromUTF8? contents with
    | none => return .error ⟨path, .notText⟩
    | some text => return .ok text

/-- The report on a loaded table. -/
def loadEvent (path : String) (table : Table) : Event :=
  ⟨.debug, .loader,
    s!"loaded table `{table.moduleName}` from {path}: {table.rules.length} rules, " ++
    s!"{table.output.fields.length} output fields"⟩

/-- Load a table from its document. -/
def loadTable (path : String) : m (Except RunFault Table) := do
  match ← readText path with
  | .error failure => return .error (.file failure)
  | .ok source =>
    match Document.parse source with
    | .error fault => return .error (.document fault)
    | .ok table =>
      Storage.report (loadEvent path table)
      return .ok table

/-- Compile a table and report on it. -/
def compileTable (table : Table) (config : Config) : m (Except RunFault Compilation) := do
  reportAll (table.compileEvents config)
  match table.compile config with
  | .error fault => return .error (.compile fault)
  | .ok compilation => return .ok compilation

/-- The report on a table that was only checked. -/
def checkedEvent (table : Table) (compilation : Compilation) : Event :=
  ⟨.info, .program,
    s!"`{table.moduleName}` is valid: {compilation.logic.guards.length} rule(s) compiled, " ++
    "nothing written"⟩

/-- Write the files of a compiled table, or only report that it is valid. -/
def finish (config : Config) (table : Table) (compilation : Compilation) :
    m (Except RunFault (List String)) := do
  if config.checkOnly then
    Storage.report (checkedEvent table compilation)
    return .ok []
  else
    match ← Writing.writeArtifacts config.outDir compilation.artifacts with
    | .error failure => return .error (.file failure)
    | .ok written => return .ok written

/-- Load, compile and write as configured; the paths of the written files in order. -/
def run (config : Config) : m (Except RunFault (List String)) := do
  match config.tablePath with
  | none => return .error (.compile (.config .noTablePath))
  | some path =>
    match ← loadTable path with
    | .error fault => return .error fault
    | .ok table =>
      match ← compileTable table config with
      | .error fault => return .error fault
      | .ok compilation => finish config table compilation

end DecoderGen
