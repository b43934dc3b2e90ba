import DecoderGen.CommandLine.Arguments
import DecoderGen.CommandLine.Evaluation
import DecoderGen.Run

/-! # Runs from the command line

A request either generates files or evaluates inputs. What it prints, and how it ends, is a report:
the lines of standard output, the events that are shown, the error if there is one, and the exit
code.
-/

namespace DecoderGen.CommandLine

/-- The outcome of a request: lines for standard output and the text of an error. -/
structure Outcome where
  lines : List String := []
  error : Option String := none
deriving DecidableEq, Repr

section

variable {m : Type → Type} [Monad m] [Storage m]

/-- Say which table could not be compiled, and why. -/
def failedToCompile (path : String) (fault : RunFault) : String :=
  s!"failed to compile {path}: {fault.withCause}"

/-- The report on generated files. -/
def generatedEvent (count : Nat) (directory : String) : Event :=
  ⟨.info, .commandLine, s!"generated {count} file(s) in {directory}"⟩

/-- Load, compile and write. -/
def generate (request : Request) : m Outcome := do
  match ← run request.config with
  | .error fault => return { error := some (failedToCompile request.table fault) }
  | .ok written =>
    if written.isEmpty then return {}
    else
      Storage.report (generatedEvent written.length request.config.outDir)
      return {}

/-- Load and compile, then decode the given inputs. -/
def evaluate (request : Request) : m Outcome := do
  match ← loadTable request.table with
  | .error fault => return { error := some fault.withCause }
  | .ok table =>
    match ← compileTable table request.config with
    | .error fault => return { error := some (failedToCompile request.table fault) }
    | .ok compilation =>
      let (lines, fault) := evaluateAll table.output.fields compilation.logic request.evals
      return { lines, error := fault.map EvalFault.message }

/-- Carry out a request. -/
def execute (request : Request) : m Outcome :=
  if request.evals.isEmpty then generate request else evaluate request

end

/-- The level of events that a setting names; `off` shows none and an empty setting only errors. -/
def threshold? (setting : String) : Option (Option Level) :=
  let name := setting.toList.map Char.toUpper
  if name = "OFF".toList then some none
  else if name = [] then some (some .error)
  else (Level.all.find? fun level => level.name.toList = name).map some

/-- Down to which level events are shown: as the setting says, otherwise to debugging if the request
is verbose and to information if it is not. -/
def threshold (setting : Option String) (request : Request) : Option Level :=
  (setting.bind threshold?).getD (some (if request.verbose then .debug else .info))

/-- Each line with its end. -/
def unlines (lines : List String) : String := String.join (lines.map (· ++ "\n"))

/-- The line for an error. -/
def errorLine (text : String) : String := "error: " ++ text

/-- The text on standard error: the shown events, then the error. -/
def errorText (shown : Option Level) (events : List Event) (error : Option String) : String :=
  String.join ((events.filter (Event.shownAt shown)).map Event.line) ++
    unlines (error.map errorLine).toList

/-- The exit code of a run that was carried out. -/
def exitCode (outcome : Outcome) : Nat := if outcome.error.isSome then 1 else 0

/-- The exit code for arguments that cannot be used. -/
def usageExitCode : Nat := 2

/-- The name and version of the program. -/
def versionText : String := "dectab 0.1.0"

/-- How the program is called. -/
def usageText : String :=
  "Usage: dectab [OPTIONS] <TABLE>\n\n" ++
  "Options:\n" ++
  "  -o, --out-dir <OUT_DIR>          Directory to write the generated files into\n" ++
  "  -b, --backend <BACKEND>          Logic compiler backend (native or espresso)\n" ++
  "      --check                      Only validate and compile, do not write any files\n" ++
  "      --strict                     Treat overlapping rules as errors\n" ++
  "      --eval <BITS>                Decode a concrete input and print the field values\n" ++
  "      --input-port <INPUT_PORT>    Name of the decoder input port\n" ++
  "      --output-port <OUTPUT_PORT>  Name of the decoder output port\n" ++
  "      --no-header                  Omit the generated-file header comment\n" ++
  "  -v, --verbose                    Enable verbose logging\n" ++
  "  -h, --help                       Print help\n" ++
  "  -V, --version                    Print version"

/-- The text of a notice. -/
def Notice.text : Notice → String
  | .help => usageText
  | .version => versionText

/-- What a call of the program prints, and its exit code. -/
structure Report where
  exit : Nat
  stdout : String
  stderr : String
deriving DecidableEq, Repr

/-- The report on arguments that do not lead to a run. -/
def Stop.report : Stop → Report
  | .usage => ⟨usageExitCode, "", unlines [usageText]⟩
  | .notice asked => ⟨0, unlines [asked.text], ""⟩

/-- Call the program on a file tree. The setting chooses which events are shown. -/
def call (arguments : List String) (setting : Option String) (tree : FileTree) :
    Report × FileTree :=
  match parse arguments with
  | .error stop => (stop.report, tree)
  | .ok request =>
    let (outcome, after) := (execute request : StateM Workspace Outcome) { tree }
    (⟨exitCode outcome, unlines outcome.lines,
      errorText (threshold setting request) after.events outcome.error⟩, after.tree)

end DecoderGen.CommandLine
