import DecoderGen.Text.ControlSequence

/-! # Events

What the program reports about its progress. An event has a level, the part of the program it comes
from, and a text. Reading events never influences what is generated.
-/

namespace DecoderGen

/-- How much an event matters, from the most to the least. -/
inductive Level where
  | error
  | warn
  | info
  | debug
  | trace
deriving DecidableEq, Repr

namespace Level

/-- All levels from the most to the least important. -/
def all : List Level := [.error, .warn, .info, .debug, .trace]

/-- The number of levels that matter more. -/
def rank : Level → Nat
  | .error => 0
  | .warn => 1
  | .info => 2
  | .debug => 3
  | .trace => 4

/-- The name of a level in upper case. -/
def name : Level → String
  | .error => "ERROR"
  | .warn => "WARN"
  | .info => "INFO"
  | .debug => "DEBUG"
  | .trace => "TRACE"

end Level

/-- The part of the program an event comes from. -/
inductive Origin where
  | program
  | loader
  | validation
  | analysis
  | compiler
  | nativeBackend
  | espressoBackend
  | emitter
  | writer
  | commandLine
deriving DecidableEq, Repr

/-- The name under which a part of the program reports. -/
def Origin.name : Origin → String
  | .program => "dectab"
  | .loader => "dectab::table::loader"
  | .validation => "dectab::validate"
  | .analysis => "dectab::analysis"
  | .compiler => "dectab::compiler"
  | .nativeBackend => "dectab::compiler::native"
  | .espressoBackend => "dectab::compiler::espresso"
  | .emitter => "dectab::emit"
  | .writer => "dectab::output"
  | .commandLine => "dectab_cli"

/-- One report of the program. -/
structure Event where
  level : Level
  origin : Origin
  text : String
deriving DecidableEq, Repr

namespace Event

/-- Whether an event is shown when everything down to a level is; without a level nothing is. -/
def shownAt (threshold : Option Level) (event : Event) : Bool :=
  match threshold with
  | none => false
  | some level => event.level.rank ≤ level.rank

/-- The text of an event with every line but the first indented. -/
def indentedText (event : Event) : String :=
  String.ofList (event.text.toList.flatMap fun symbol =>
    if symbol = '\n' then '\n' :: List.replicate 4 ' ' else [symbol])

/-- The written form of an event with its line end; levels are padded to one width. Nothing in it
steers the terminal that shows it, and an unfinished control sequence hides the line end too. -/
def line (event : Event) : String :=
  let padding := String.ofList (List.replicate (5 - event.level.name.length) ' ')
  Text.withoutControls
    s!"[{event.level.name}{padding} {event.origin.name}] {event.indentedText}\n"

end Event
end DecoderGen
