import DecoderGen.CommandLine.Session

/-! # The program

Runs a request on the files of the machine. Events are written to standard error as they are
reported.
-/

namespace DecoderGen.Program

/-- Programs that know down to which level events are shown. -/
abbrev App := ReaderT (Option Level) IO

/-- The number of a system error, which may be given negated. -/
def errorNumber (code : UInt32) : Nat :=
  if code < 0x80000000 then code.toNat else (0 - code).toNat

/-- The cause of a failed file operation. -/
def faultOf (error : IO.Error) : FileFault :=
  match error with
  | .noFileOrDirectory _ _ _ => .notFound
  | .alreadyExists _ _ _ => .exists
  | .inappropriateType _ code _ =>
    if errorNumber code = 20 then .notDirectory
    else if errorNumber code = 21 then .isDirectory
    else .other (toString error)
  | .invalidArgument _ code _ =>
    if errorNumber code = 36 then .nameTooLong else .other (toString error)
  | _ => .other (toString error)

/-- The result of a file operation, with the cause if it fails. -/
def attempt {α : Type} (operation : IO α) : IO (Except FileFault α) := do
  try
    return .ok (← operation)
  catch error =>
    return .error (faultOf error)

/-- Whether a path leads to a directory: it is there and cannot be read as a file. -/
def isDirectory (path : String) : IO Bool := do
  match ← attempt (IO.FS.readBinFile path) with
  | .error .isDirectory => return true
  | _ => return false

/-- Create a directory unless it is there already. -/
def ensureDirectory (path : String) : IO (Except FileFault Unit) := do
  match ← attempt (IO.FS.createDir path) with
  | .ok () => return .ok ()
  | .error fault => if ← isDirectory path then return .ok () else return .error fault

/-- Create a directory, and first the directories above it if one is missing. The names above are
given in reverse. -/
def ensureBelow (path : String) : List String → IO (Except FileFault Unit)
  | [] => ensureDirectory path
  | last :: above => do
    match ← attempt (IO.FS.createDir path) with
    | .error .notFound =>
      match ← ensureBelow (Path.ofNames (last :: above).reverse) above with
      | .error fault => return .error fault
      | .ok () => ensureDirectory path
    | _ => ensureDirectory path

instance : Storage App where
  read path := attempt (IO.FS.readBinFile path)
  write path contents := attempt (IO.FS.writeBinFile path contents)
  remove path := attempt (IO.FS.removeFile path)
  rename source target := attempt (IO.FS.rename source target)
  createDirectories path :=
    if path = "" then return .ok ()
    else
      let root := if Path.isAbsolute path then [""] else []
      ensureBelow path ((Path.components path).reverse.tail ++ root)
  isFile path := do
    match ← attempt (IO.FS.readBinFile path) with
    | .ok _ => return true
    | .error _ => return false
  report event := fun shown =>
    if event.shownAt shown then IO.eprint event.line else return ()

/-- Print a report that was made without a run. -/
def printReport (report : CommandLine.Report) : IO UInt32 := do
  IO.print report.stdout
  IO.eprint report.stderr
  return report.exit.toUInt32

/-- The environment variable that says down to which level events are shown. -/
def levelVariable : String := "RUST_LOG"

/-- Carry out a request and print its outcome. -/
def runRequest (request : CommandLine.Request) : IO UInt32 := do
  let shown := CommandLine.threshold (← IO.getEnv levelVariable) request
  let outcome ← (CommandLine.execute request : App CommandLine.Outcome) shown
  IO.print (CommandLine.unlines outcome.lines)
  IO.eprint (CommandLine.errorText shown [] outcome.error)
  return (CommandLine.exitCode outcome).toUInt32

end DecoderGen.Program

/-- Call the program with command-line arguments. -/
def main (arguments : List String) : IO UInt32 :=
  match DecoderGen.CommandLine.parse arguments with
  | .error stop => DecoderGen.Program.printReport stop.report
  | .ok request => DecoderGen.Program.runRequest request
