/-! # Indented lines

Generated text is a list of lines, each at a depth of nesting. Only lines with a text are indented.
-/

namespace DecoderGen.SystemVerilog

/-- A line of generated text at a depth of nesting. -/
structure Line where
  depth : Nat
  text : String
deriving DecidableEq, Repr

namespace Line

/-- A line without text. -/
def blank : Line := ⟨0, ""⟩

/-- The characters of a line and its end, with one indentation per level of depth. -/
def symbols (indent : String) (line : Line) : List Char :=
  if line.text = "" then ['\n']
  else (List.replicate line.depth indent.toList).flatten ++ line.text.toList ++ ['\n']

/-- The text of lines. -/
def render (indent : String) (lines : List Line) : String :=
  String.ofList (lines.flatMap (symbols indent))

end Line

/-- Whether a character is a control character. -/
def isControl (symbol : Char) : Bool :=
  symbol.toNat < 0x20 || (0x7F ≤ symbol.toNat && symbol.toNat < 0xA0)

/-- A text made fit for a comment of one line: control characters become spaces. -/
def commentText (text : String) : String :=
  String.ofList (text.toList.map fun symbol => if isControl symbol then ' ' else symbol)

/-- The comment of one line that holds a text. -/
def comment (text : String) : String := "// " ++ commentText text

end DecoderGen.SystemVerilog
