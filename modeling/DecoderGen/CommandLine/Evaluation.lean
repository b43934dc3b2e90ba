import DecoderGen.Logic

/-! # Evaluating inputs

Decodes inputs given as text and describes the outcome of each in one line. The first text that is
no input of the decoder ends the evaluation; what was decoded before it stands.
-/

namespace DecoderGen.CommandLine

/-- Why a text is not evaluated. -/
inductive EvalFault where
  | notBinary (text : String)
  | wrongWidth (text : String) (actual expected : Nat)
deriving DecidableEq, Repr

/-- The wording of an evaluation fault. -/
def EvalFault.message : EvalFault → String
  | .notBinary text => s!"`{text}` is not a binary input"
  | .wrongWidth text actual expected =>
    s!"input `{text}` has {actual} bits, the decoder takes {expected}"

/-- The input a text stands for, if it is as wide as the decoder. -/
def readInput (width : Nat) (text : String) : Except EvalFault Input :=
  match Input.parse? text with
  | none => .error (.notBinary text)
  | some input =>
    if input.length = width then .ok input else .error (.wrongWidth text input.length width)

/-- The description of one field and its value. -/
def fieldText (field : String) (value : Bool) : String := s!"{field}=" ++ if value then "1" else "0"

/-- The description of a decoded input: its bits, the deciding rule, and all fields. -/
def describeInput (fields : List String) (logic : Logic) (input : Input) : String :=
  let rule := match logic.firstMatch? input with
    | some guard => guard.name
    | none => "<default>"
  s!"{input.text} [{rule}] " ++
    String.intercalate " " (List.zipWith fieldText fields (logic.evaluate input))

/-- The lines for texts up to the first one that is no input, and the fault of that one. -/
def evaluateAll (fields : List String) (logic : Logic) :
    List String → List String × Option EvalFault
  | [] => ([], none)
  | text :: rest =>
    match readInput logic.inputWidth text with
    | .error fault => ([], some fault)
    | .ok input =>
      let (lines, fault) := evaluateAll fields logic rest
      (describeInput fields logic input :: lines, fault)

end DecoderGen.CommandLine
