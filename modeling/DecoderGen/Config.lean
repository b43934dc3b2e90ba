import DecoderGen.Backend
import DecoderGen.Table

/-! # Settings of a run

A style lays out the generated text; a configuration adds where to read and write, the backend, and
how strictly to treat the table.
-/

namespace DecoderGen

/-- The names and the layout of generated text. -/
structure Style where
  inputPort : String := "instr_i"
  outputPort : String := "decode_o"
  /-- Follows the type name in the name of the package that declares the type. -/
  packageSuffix : String := "_pkg"
  /-- Whether generated text starts with a comment on its origin. -/
  header : Bool := true
  /-- The text of one level of indentation. -/
  indent : String := "  "
deriving DecidableEq, Repr

namespace Style

/-- Indent each level by a number of spaces. -/
def withSpaces (style : Style) (count : Nat) : Style :=
  { style with indent := String.ofList (List.replicate count ' ') }

/-- The name of the package that declares a type. -/
def packageName (style : Style) (typeName : String) : String := typeName ++ style.packageSuffix

end Style

/-- Everything a run depends on besides the table and the files. -/
structure Config where
  tablePath : Option String := none
  outDir : String := "."
  backend : Backend := .native
  style : Style := {}
  /-- Whether overlapping rules are an error. -/
  strict : Bool := false
  /-- Whether to stop before writing files. -/
  checkOnly : Bool := false
deriving DecidableEq, Repr

/-- Why a configuration cannot be used. -/
inductive ConfigFault where
  | noTablePath
  | port (fault : NameFault)
  | samePorts (name : String)
  | portIsType (role : NameRole) (name : String)
  | packageSuffix (suffix : String)
  | moduleIsPackage (moduleName packageName : String)
deriving DecidableEq, Repr

/-- The wording of a configuration fault. -/
def ConfigFault.message (fault : ConfigFault) : String :=
  "config error: " ++
  match fault with
  | .noTablePath => "no table path given"
  | .port inner => inner.message
  | .samePorts name => s!"input and output ports share the name `{name}`"
  | .portIsType role name => s!"{role.description} `{name}` collides with the output type name"
  | .packageSuffix suffix => s!"package suffix `{suffix}` is not a legal identifier suffix"
  | .moduleIsPackage moduleName packageName =>
    s!"module name `{moduleName}` collides with the type package `{packageName}`"

namespace Style

/-- Whether a text can follow an identifier within an identifier. -/
def isSuffix (text : String) : Bool := text ≠ "" && text.toList.all isIdentifierPart

/-- The first fault of a style for the text of a table. -/
def fault? (style : Style) (table : Table) : Option ConfigFault :=
  (identifierFault? .inputPort style.inputPort).map .port <|>
  (identifierFault? .outputPort style.outputPort).map .port <|>
  (if style.inputPort = style.outputPort then some (.samePorts style.inputPort) else none) <|>
  (if style.inputPort = table.output.typeName then
    some (.portIsType .inputPort style.inputPort) else none) <|>
  (if style.outputPort = table.output.typeName then
    some (.portIsType .outputPort style.outputPort) else none) <|>
  (if isSuffix style.packageSuffix then none else some (.packageSuffix style.packageSuffix)) <|>
  (if style.packageName table.output.typeName = table.moduleName then
    some (.moduleIsPackage table.moduleName (style.packageName table.output.typeName)) else none)

end Style
end DecoderGen
