/-! # Terminal control sequences

Some characters steer a terminal instead of being shown on it: a sequence starts with an escape
character and ends with a character that its kind prescribes. Removing the sequences, and with them
all control characters but blank ones, leaves a text that only shows something.

A sequence may be left before its end. A line end or a tab inside most kinds of sequence is shown,
and so is what follows it, until a control character takes the sequence up again.
-/

namespace DecoderGen.Text

/-- Whether a character is blank and within ASCII. -/
def isAsciiBlank (symbol : Char) : Bool :=
  symbol = ' ' || symbol = '\t' || symbol = '\n' || symbol = '\x0c' || symbol = '\r'

/-- Whether a character is shown outside of all control sequences. Everything beyond ASCII is. -/
def isShown (symbol : Char) : Bool :=
  isAsciiBlank symbol || (0x20 ≤ symbol.toNat && symbol.toNat ≠ 0x7F)

/-- Characters between the start of a sequence and its last character, without a value. -/
def isIntermediate (symbol : Char) : Bool := 0x20 ≤ symbol.toNat && symbol.toNat ≤ 0x2F

/-- Digits and the separators of parameters. -/
def isParameter (symbol : Char) : Bool := 0x30 ≤ symbol.toNat && symbol.toNat ≤ 0x3B

/-- Marks of private parameters, which may only stand first. -/
def isPrivateMark (symbol : Char) : Bool := 0x3C ≤ symbol.toNat && symbol.toNat ≤ 0x3F

/-- Characters that name a command and complete its sequence. -/
def isCommand (symbol : Char) : Bool := 0x40 ≤ symbol.toNat && symbol.toNat ≤ 0x7E

/-- Whether the byte that terminates a string is part of the encoding of a character. -/
def holdsTerminator (symbol : Char) : Bool := (String.utf8EncodeChar symbol).contains 0x9C

/-- How far a control sequence has come. -/
inductive Phase where
  /-- There is no sequence. -/
  | outside
  /-- The escape character has been read. -/
  | escape
  /-- An escape sequence has an intermediate character. -/
  | escapeIntermediate
  /-- A control sequence has been introduced. -/
  | control
  /-- A control sequence has a parameter. -/
  | controlParameter
  /-- A control sequence has an intermediate character. -/
  | controlIntermediate
  /-- A control sequence is malformed and only its end matters. -/
  | controlMalformed
  /-- A device string has been introduced. -/
  | device
  /-- A device string has a parameter. -/
  | deviceParameter
  /-- A device string has an intermediate character. -/
  | deviceIntermediate
  /-- The contents of a string that ends at its terminator. -/
  | payload
  /-- The contents of a string for the operating system, which a bell ends. -/
  | systemCommand
deriving DecidableEq, Repr

namespace Phase

/-- The phase after a character that is not shown. -/
def next (phase : Phase) (symbol : Char) : Phase :=
  match phase with
  | .outside => .outside
  | .escape =>
    if isIntermediate symbol then .escapeIntermediate
    else if symbol = '[' then .control
    else if symbol = ']' then .systemCommand
    else if symbol = 'P' then .device
    else if symbol = 'X' || symbol = '^' || symbol = '_' then .payload
    else if isParameter symbol || isPrivateMark symbol || isCommand symbol then .outside
    else .escape
  | .escapeIntermediate =>
    if isParameter symbol || isPrivateMark symbol || isCommand symbol then .outside
    else .escapeIntermediate
  | .control =>
    if isIntermediate symbol then .controlIntermediate
    else if isParameter symbol || isPrivateMark symbol then .controlParameter
    else if isCommand symbol then .outside
    else .control
  | .controlParameter =>
    if isIntermediate symbol then .controlIntermediate
    else if isPrivateMark symbol then .controlMalformed
    else if isCommand symbol then .outside
    else .controlParameter
  | .controlIntermediate =>
    if isParameter symbol || isPrivateMark symbol then .controlMalformed
    else if isCommand symbol then .outside
    else .controlIntermediate
  | .controlMalformed => if isCommand symbol then .outside else .controlMalformed
  | .device =>
    if isIntermediate symbol then .deviceIntermediate
    else if isParameter symbol || isPrivateMark symbol then .deviceParameter
    else if isCommand symbol then .payload
    else .device
  | .deviceParameter =>
    if isIntermediate symbol then .deviceIntermediate
    else if isPrivateMark symbol || isCommand symbol then .payload
    else .deviceParameter
  | .deviceIntermediate =>
    if isParameter symbol || isPrivateMark symbol || isCommand symbol then .payload
    else .deviceIntermediate
  | .payload => if holdsTerminator symbol then .outside else .payload
  | .systemCommand => if symbol = '\x07' then .outside else .systemCommand

/-- Whether a character is shown in a phase: inside a sequence that is no string, blank control
characters are. -/
def shows (phase : Phase) (symbol : Char) : Bool :=
  match phase with
  | .outside => isShown symbol
  | .escape | .escapeIntermediate | .control | .controlParameter | .controlIntermediate
  | .controlMalformed => isAsciiBlank symbol && symbol ≠ ' '
  | .device | .deviceParameter | .deviceIntermediate | .payload | .systemCommand => false

end Phase

/-- The progress of a control sequence, and whether it is suspended because text is being shown. -/
structure Progress where
  phase : Phase := .outside
  suspended : Bool := false
deriving DecidableEq, Repr

namespace Progress

/-- The progress after a character, and whether the character is shown. Cancelling and escaping work
everywhere. A suspended sequence is given up at a character beyond ASCII. -/
def step (progress : Progress) (symbol : Char) : Progress × Bool :=
  if symbol = '\x18' || symbol = '\x1a' then ({}, false)
  else if symbol = '\x1b' then ({ phase := .escape }, false)
  else if progress.suspended && isShown symbol then
    (if symbol.toNat < 0x80 then progress else {}, true)
  else if progress.phase.shows symbol then ({ progress with suspended := true }, true)
  else ({ phase := progress.phase.next symbol }, false)

/-- The characters of a text that are shown. -/
def shown (progress : Progress) : List Char → List Char
  | [] => []
  | symbol :: rest =>
    let (after, kept) := progress.step symbol
    if kept then symbol :: after.shown rest else after.shown rest

end Progress

/-- A text without its control sequences. -/
def withoutControls (text : String) : String :=
  String.ofList (({} : Progress).shown text.toList)

end DecoderGen.Text
