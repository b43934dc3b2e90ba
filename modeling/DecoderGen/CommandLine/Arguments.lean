import DecoderGen.Config

/-! # Command-line arguments

Arguments are read from left to right, and the first one that cannot be used, or that asks for a
notice, decides. Options stand before or behind the table path. Values follow long names after `=`
or as the next argument, and short names also directly. Short names may be joined. An argument `--`
makes all others table paths.
-/

namespace DecoderGen.CommandLine

/-- Options without a value. -/
inductive Switch where
  | check
  | strict
  | noHeader
  | verbose
deriving DecidableEq, Repr

/-- Options with a value. -/
inductive Setting where
  | outDir
  | backend
  | eval
  | inputPort
  | outputPort
deriving DecidableEq, Repr

/-- Options that ask for a text in place of a run. -/
inductive Notice where
  | help
  | version
deriving DecidableEq, Repr

/-- All options. -/
inductive Choice where
  | switch (switch : Switch)
  | setting (setting : Setting)
  | notice (notice : Notice)
deriving DecidableEq, Repr

/-- The option of a long name. Names are not abbreviated. -/
def Choice.ofLong? : String → Option Choice
  | "out-dir" => some (.setting .outDir)
  | "backend" => some (.setting .backend)
  | "eval" => some (.setting .eval)
  | "input-port" => some (.setting .inputPort)
  | "output-port" => some (.setting .outputPort)
  | "check" => some (.switch .check)
  | "strict" => some (.switch .strict)
  | "no-header" => some (.switch .noHeader)
  | "verbose" => some (.switch .verbose)
  | "help" => some (.notice .help)
  | "version" => some (.notice .version)
  | _ => none

/-- The option of a short name. -/
def Choice.ofShort? : Char → Option Choice
  | 'o' => some (.setting .outDir)
  | 'b' => some (.setting .backend)
  | 'v' => some (.switch .verbose)
  | 'h' => some (.notice .help)
  | 'V' => some (.notice .version)
  | _ => none

/-- Why arguments do not lead to a run. -/
inductive Stop where
  | usage
  | notice (notice : Notice)
deriving DecidableEq, Repr

/-- What has been given so far. -/
structure Arguments where
  table : Option String := none
  outDir : Option String := none
  backend : Option Backend := none
  evals : List String := []
  inputPort : Option String := none
  outputPort : Option String := none
  switches : List Switch := []
deriving DecidableEq, Repr

namespace Arguments

/-- A value where none was given before. -/
def once {α : Type} (given : Option α) (value : α) : Except Stop (Option α) :=
  if given.isSome then .error .usage else .ok (some value)

/-- A path, which may not be empty. -/
def nonempty (path : String) : Except Stop String := if path = "" then .error .usage else .ok path

/-- Take the table path. -/
def addTable (arguments : Arguments) (path : String) : Except Stop Arguments := do
  return { arguments with table := ← once arguments.table (← nonempty path) }

/-- Turn a switch on, once. -/
def turnOn (arguments : Arguments) (switch : Switch) : Except Stop Arguments :=
  if switch ∈ arguments.switches then .error .usage
  else .ok { arguments with switches := switch :: arguments.switches }

/-- Take the value of an option. Only inputs to evaluate may be given more than once. -/
def set (arguments : Arguments) (value : String) : Setting → Except Stop Arguments
  | .outDir => do return { arguments with outDir := ← once arguments.outDir (← nonempty value) }
  | .backend =>
    match Backend.ofName? value with
    | none => .error .usage
    | some backend => do return { arguments with backend := ← once arguments.backend backend }
  | .eval => .ok { arguments with evals := arguments.evals ++ [value] }
  | .inputPort => do return { arguments with inputPort := ← once arguments.inputPort value }
  | .outputPort => do return { arguments with outputPort := ← once arguments.outputPort value }

/-- Read a long option; a setting without a value is left open. -/
def addLong (arguments : Arguments) (name : List Char) (value : Option (List Char)) :
    Except Stop (Arguments × Option Setting) :=
  match Choice.ofLong? (String.ofList name), value with
  | some (.switch switch), none => do return (← arguments.turnOn switch, none)
  | some (.notice notice), none => .error (.notice notice)
  | some (.setting setting), none => .ok (arguments, some setting)
  | some (.setting setting), some value => do
    return (← arguments.set (String.ofList value) setting, none)
  | _, _ => .error .usage

/-- Read joined short options; a setting without a value is left open. -/
def addShort (arguments : Arguments) : List Char → Except Stop (Arguments × Option Setting)
  | [] => .ok (arguments, none)
  | symbol :: rest =>
    match Choice.ofShort? symbol with
    | none => .error .usage
    | some (.notice notice) => .error (.notice notice)
    | some (.switch switch) =>
      match arguments.turnOn switch with
      | .error stop => .error stop
      | .ok arguments => arguments.addShort rest
    | some (.setting setting) =>
      match rest with
      | [] => .ok (arguments, some setting)
      | '=' :: value => do return (← arguments.set (String.ofList value) setting, none)
      | value => do return (← arguments.set (String.ofList value) setting, none)

/-- Split a long option at its first equals sign. -/
def splitLong (text : List Char) : List Char × Option (List Char) :=
  match text.dropWhile (· ≠ '=') with
  | [] => (text, none)
  | _ :: value => (text.takeWhile (· ≠ '='), some value)

/-- Read one argument; a setting that still needs its value is left open. -/
def add (arguments : Arguments) (argument : String) : Except Stop (Arguments × Option Setting) :=
  match argument.toList with
  | '-' :: '-' :: text =>
    let (name, value) := splitLong text
    arguments.addLong name value
  | '-' :: symbol :: rest => arguments.addShort (symbol :: rest)
  | _ => do return (← arguments.addTable argument, none)

/-- Whether an argument is an option, and so no value of the option before it. -/
def isOption (argument : String) : Bool :=
  match argument.toList with
  | '-' :: _ :: _ => true
  | _ => false

/-- Take all arguments as table paths. -/
def addTables (arguments : Arguments) : List String → Except Stop Arguments
  | [] => .ok arguments
  | path :: rest =>
    match arguments.addTable path with
    | .error stop => .error stop
    | .ok arguments => arguments.addTables rest

/-- Read all arguments from left to right. -/
def addAll (arguments : Arguments) : List String → Except Stop Arguments
  | [] => .ok arguments
  | argument :: rest =>
    if argument = "--" then arguments.addTables rest
    else
      match arguments.add argument with
      | .error stop => .error stop
      | .ok (arguments, none) => arguments.addAll rest
      | .ok (arguments, some setting) =>
        match rest with
        | [] => .error .usage
        | value :: rest =>
          if isOption value then .error .usage
          else
            match arguments.set value setting with
            | .error stop => .error stop
            | .ok arguments => arguments.addAll rest

end Arguments

/-- What a run was asked for on the command line. -/
structure Request where
  table : String
  config : Config
  /-- The inputs to evaluate; with any of them no file is written. -/
  evals : List String
  verbose : Bool
deriving DecidableEq, Repr

/-- The request that arguments make, if they name a table. -/
def Arguments.request? (arguments : Arguments) : Option Request := do
  let table ← arguments.table
  let defaults : Config := {}
  let style : Style := {
    inputPort := arguments.inputPort.getD defaults.style.inputPort
    outputPort := arguments.outputPort.getD defaults.style.outputPort
    header := Switch.noHeader ∉ arguments.switches }
  let config : Config := {
    tablePath := some table
    outDir := arguments.outDir.getD defaults.outDir
    backend := arguments.backend.getD defaults.backend
    style
    strict := Switch.strict ∈ arguments.switches
    checkOnly := Switch.check ∈ arguments.switches || !arguments.evals.isEmpty }
  return ⟨table, config, arguments.evals, Switch.verbose ∈ arguments.switches⟩

/-- Read the arguments of a run. -/
def parse (arguments : List String) : Except Stop Request :=
  match Arguments.addAll {} arguments with
  | .error stop => .error stop
  | .ok given =>
    match given.request? with
    | none => .error .usage
    | some request => .ok request

end DecoderGen.CommandLine
