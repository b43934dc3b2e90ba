import DecoderGen.Config
import DecoderGen.Logic
import DecoderGen.SystemVerilog.Line

/-! # Generated SystemVerilog

Two texts are generated for a table. The types package declares the output as a packed structure of
one-bit fields. The decoder module holds a priority `casez` with one arm per guard, each of which
assigns every field, and a default arm that clears them all.
-/

namespace DecoderGen.SystemVerilog

/-- The comment that opens generated text, if the style asks for one. -/
def header (table : Table) (style : Style) : List Line :=
  if style.header then
    [⟨0, s!"// Generated by dectab from decode table `{commentText table.moduleName}`. Do not edit."⟩]
  else []

/-- The lines of the types package. -/
def typesLines (table : Table) (style : Style) : List Line :=
  let package := style.packageName table.output.typeName
  header table style ++
  (if style.header then [Line.blank] else []) ++
  [⟨0, s!"package {package};"⟩,
    Line.blank,
    ⟨1, "typedef struct packed \x7b"⟩] ++
  table.output.fields.map (fun field => ⟨2, s!"logic {field};"⟩) ++
  [⟨1, "\x7d " ++ table.output.typeName ++ ";"⟩,
    Line.blank,
    ⟨0, s!"endpackage : {package}"⟩]

/-- Pad a name on the right to a width. -/
def padRight (width : Nat) (name : String) : String :=
  name ++ String.ofList (List.replicate (width - name.length) ' ')

/-- The length of the longest name. -/
def longest (names : List String) : Nat := (names.map String.length).foldl max 0

/-- The assignment of one output field, with field names padded to one width. -/
def assignment (style : Style) (width : Nat) (field : String) (value : Bool) : String :=
  s!"{style.outputPort}.{padRight width field} = " ++ (if value then "1'b1;" else "1'b0;")

/-- The label of the arm of a guard. -/
def armLabel (guard : Guard) : String :=
  s!"{guard.pattern.width}'b{guard.pattern.casez}: begin"

/-- The arm of a guard under a comment with the name of its rule. -/
def armLines (table : Table) (style : Style) (guard : Guard) : List Line :=
  let fields := table.output.fields
  [⟨3, comment guard.name⟩, ⟨3, armLabel guard⟩] ++
  fields.mapIdx (fun position field =>
    ⟨4, assignment style (longest fields) field (guard.asserts position)⟩) ++
  [⟨3, "end"⟩]

/-- The lines of the decoder module. -/
def decoderLines (table : Table) (logic : Logic) (style : Style) : List Line :=
  header table style ++
  (if style.header then
    [⟨0, s!"// Backend: {logic.backend.name}, {logic.guards.length} rule(s)."⟩, Line.blank]
  else []) ++
  [⟨0, s!"module {table.moduleName}"⟩,
    ⟨1, s!"import {style.packageName table.output.typeName}::*;"⟩,
    ⟨0, "("⟩,
    ⟨1, s!"input  logic [{table.inputWidth - 1}:0] {style.inputPort},"⟩,
    ⟨1, s!"output {table.output.typeName} {style.outputPort}"⟩,
    ⟨0, ");"⟩,
    Line.blank,
    ⟨1, "always_comb begin"⟩,
    ⟨2, s!"casez ({style.inputPort})"⟩] ++
  logic.guards.flatMap (armLines table style) ++
  [⟨3, "default: begin"⟩,
    ⟨4, s!"{style.outputPort} = '0;"⟩,
    ⟨3, "end"⟩,
    ⟨2, "endcase"⟩,
    ⟨1, "end"⟩,
    Line.blank,
    ⟨0, s!"endmodule : {table.moduleName}"⟩]

end DecoderGen.SystemVerilog

namespace DecoderGen

/-- A generated file. -/
structure Artifact where
  fileName : String
  contents : String
deriving DecidableEq, Repr

/-- The generated files of a table. -/
structure Artifacts where
  types : Artifact
  decoder : Artifact
deriving DecidableEq, Repr

namespace Artifacts

/-- The files in the order in which they are written. -/
def toList (artifacts : Artifacts) : List Artifact := [artifacts.types, artifacts.decoder]

/-- Generate the files of a table. -/
def generate (table : Table) (logic : Logic) (style : Style) : Artifacts where
  types :=
    { fileName := style.packageName table.output.typeName ++ ".sv"
      contents := SystemVerilog.Line.render style.indent (SystemVerilog.typesLines table style) }
  decoder :=
    { fileName := table.moduleName ++ ".sv"
      contents :=
        SystemVerilog.Line.render style.indent (SystemVerilog.decoderLines table logic style) }

/-- The report on generated files and their sizes. -/
def event (artifacts : Artifacts) : Event :=
  ⟨.debug, .emitter,
    s!"emitted {artifacts.types.fileName} ({artifacts.types.contents.utf8ByteSize} bytes) and " ++
    s!"{artifacts.decoder.fileName} ({artifacts.decoder.contents.utf8ByteSize} bytes)"⟩

end Artifacts
end DecoderGen
