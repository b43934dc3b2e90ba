import DecoderGen.Proofs.DecoderText

/-! # The two generated files agree

Readers for the types package and for the header of the decoder module, neither of which knows the
table. The package reads as the fields of the schema in order and the name of their type; the header
names the same package and the same type. In every arm of the decoder the assigned members are once
more the fields in order, and all assignments have their equals signs in one column.
-/

namespace DecoderGen.SystemVerilog

/-- The lines of a text that hold code, without the blanks around it. -/
def filledLines (text : String) : List (List Char) := (codeLines text).filter (· ≠ [])

/-- Read a name that stands between two fixed texts. -/
def readName? (opening closing : String) (line : List Char) : Option String := do
  let rest ← line.dropPrefix? opening.toList
  if rest.dropWhile isIdentifierPart = closing.toList then
    some (String.ofList (rest.takeWhile isIdentifierPart))
  else none

/-- A package of one packed structure as it is read from text. -/
structure PackageText where
  package : String
  members : List String
  typeName : String
deriving DecidableEq, Repr

/-- Read one-bit members up to the line that closes their structure; the members, the name of the
structure, and the lines behind it. -/
def readStruct? : List (List Char) → Option (List String × String × List (List Char))
  | [] => none
  | line :: rest =>
    match readName? "logic " ";" line with
    | some member => (readStruct? rest).map fun (members, behind) => (member :: members, behind)
    | none => (readName? "\x7d " ";" line).map fun typeName => ([], typeName, rest)

/-- Read a package that holds one packed structure and nothing else. -/
def readPackage? (text : String) : Option PackageText :=
  match filledLines text with
  | opening :: struct :: rest => do
    let package ← readName? "package " ";" opening
    let (members, typeName, behind) ← readStruct? rest
    if struct = "typedef struct packed \x7b".toList ∧
        behind = [("endpackage : " ++ package).toList] then
      some ⟨package, members, typeName⟩
    else none
  | _ => none

/-- The header of a module with one input and one output as it is read from text. -/
structure ModuleHeader where
  moduleName : String
  package : String
  /-- The number of the most significant input bit; the least significant one has number 0. -/
  high : Nat
  inputPort : String
  typeName : String
  outputPort : String
deriving DecidableEq, Repr

/-- Read the declaration of an input: the number of its most significant bit and its name. -/
def readInput? (line : List Char) : Option (Nat × String) := do
  let rest ← line.dropPrefix? "input  logic [".toList
  let port ← readName? ":0] " "," (rest.dropWhile Char.isDigit)
  if rest.takeWhile Char.isDigit = [] then none
  else some (Nat.ofDigitChars 10 (rest.takeWhile Char.isDigit) 0, port)

/-- Read the declaration of an output: its type and its name. -/
def readOutput? (line : List Char) : Option (String × String) := do
  let rest ← line.dropPrefix? "output ".toList
  let port ← readName? " " "" (rest.dropWhile isIdentifierPart)
  some (String.ofList (rest.takeWhile isIdentifierPart), port)

/-- Read the header at the start of a module, which imports one package. -/
def readHeader? (text : String) : Option ModuleHeader :=
  match filledLines text with
  | title :: imports :: opening :: input :: output :: closing :: _ => do
    let moduleName ← readName? "module " "" title
    let package ← readName? "import " "::*;" imports
    let (high, inputPort) ← readInput? input
    let (typeName, outputPort) ← readOutput? output
    if opening = "(".toList ∧ closing = ");".toList then
      some ⟨moduleName, package, high, inputPort, typeName, outputPort⟩
    else none
  | _ => none

/-- The member that a line assigns and the column of its equals sign, the indentation included. -/
def assignedColumn? (port : String) (line : List Char) : Option (String × Nat) := do
  let (member, _) ← readAssignment? port (trimmed line)
  let column ← line.idxOf? '='
  return (member, column)

/-- The members assigned in a text, in order, with the columns of their equals signs. -/
def assignedColumns (port text : String) : List (String × Nat) :=
  (textLines text).filterMap (assignedColumn? port)

/-! ## Pieces of text read back -/

section Pieces

/-- A name between fixed texts is read back. -/
theorem readName?_enclosed (opening closing : String) {name : String}
    (parts : ∀ symbol ∈ name.toList, isIdentifierPart symbol = true)
    (stops : closing.toList.head?.any isIdentifierPart = false) :
    readName? opening closing (opening ++ name ++ closing).toList = some name := by
  obtain ⟨taken, behind⟩ := takeWhile_append_of_head? parts stops
  rw [readName?, String.toList_append, String.toList_append, List.append_assoc,
    List.dropPrefix?_append_of_beq _ (beq_self_eq_true opening.toList)]
  simp only [Option.bind_eq_bind, Option.bind_some, taken, behind, if_true, String.ofList_toList]

/-- A name behind a fixed text is read back. -/
theorem readName?_last (opening : String) {name : String}
    (parts : ∀ symbol ∈ name.toList, isIdentifierPart symbol = true) :
    readName? opening "" (opening ++ name).toList = some name := by
  have read := readName?_enclosed opening "" parts (by decide)
  rwa [String.append_empty] at read

/-- Reading members stops at the line that closes the structure. -/
theorem readStruct?_members {fields : List String} {typeName : String}
    (legal : ∀ field ∈ fields, isIdentifier field = true)
    (type : ∀ symbol ∈ typeName.toList, isIdentifierPart symbol = true)
    (rest : List (List Char)) :
    readStruct? (fields.map (fun field => ("logic " ++ field ++ ";").toList) ++
        ("\x7d " ++ typeName ++ ";").toList :: rest) = some (fields, typeName, rest) := by
  induction fields with
  | nil =>
    have close := readName?_enclosed "\x7d " ";" type (by decide)
    have noMember : readName? "logic " ";" ("\x7d " ++ typeName ++ ";").toList = none := by
      rw [String.toList_append, String.toList_append]
      rfl
    rw [List.map_nil, List.nil_append, readStruct?, noMember]
    simp only [close, Option.map_some]
  | cons field fields ih =>
    have here := readName?_enclosed "logic " ";"
      (fun symbol => isIdentifierPart_of_mem (legal field (List.mem_cons_self ..))) (by decide)
    rw [List.map_cons, List.cons_append, readStruct?]
    simp only [here]
    rw [ih fun other member => legal other (List.mem_cons_of_mem _ member)]
    rfl

theorem readInput?_declared (high : Nat) {port : String}
    (parts : ∀ symbol ∈ port.toList, isIdentifierPart symbol = true) :
    readInput? ("input  logic [" ++ toString high ++ ":0] " ++ port ++ ",").toList =
      some (high, port) := by
  have digits : ∀ symbol ∈ Nat.toDigits 10 high, symbol.isDigit = true :=
    fun symbol member => Nat.isDigit_of_mem_toDigits (by decide) (by decide) member
  have split : ("input  logic [" ++ toString high ++ ":0] " ++ port ++ ",").toList =
      "input  logic [".toList ++ (Nat.toDigits 10 high ++ (":0] " ++ port ++ ",").toList) := by
    simp
  obtain ⟨taken, behind⟩ := takeWhile_append_of_head? digits
    (show (":0] " ++ port ++ ",").toList.head?.any Char.isDigit = false by simp)
  rw [split, readInput?, List.dropPrefix?_append_of_beq _ (beq_self_eq_true "input  logic [".toList)]
  simp only [Option.bind_eq_bind, Option.bind_some, taken, behind,
    readName?_enclosed ":0] " "," parts (by decide), Nat.ofDigitChars_ten_toDigits]
  exact if_neg Nat.toDigits_ne_nil

theorem readOutput?_declared {typeName port : String}
    (type : ∀ symbol ∈ typeName.toList, isIdentifierPart symbol = true)
    (parts : ∀ symbol ∈ port.toList, isIdentifierPart symbol = true) :
    readOutput? ("output " ++ typeName ++ " " ++ port).toList = some (typeName, port) := by
  have split : ("output " ++ typeName ++ " " ++ port).toList =
      "output ".toList ++ (typeName.toList ++ (" " ++ port).toList) := by
    simp
  obtain ⟨taken, behind⟩ := takeWhile_append_of_head? type
    (show (" " ++ port).toList.head?.any isIdentifierPart = false by simp; decide)
  rw [split, readOutput?, List.dropPrefix?_append_of_beq _ (beq_self_eq_true "output ".toList)]
  simp only [Option.bind_eq_bind, Option.bind_some, taken, behind, readName?_last " " parts,
    String.ofList_toList]

end Pieces

/-! ## Lines of code -/

section Filled

/-- The code that is read of lines. -/
def filledCode (lines : List Line) : List (List Char) :=
  ((lines.map Line.code).filter (!isComment ·)).filter (· ≠ [])

theorem filledLines_render (count : Nat) (lines : List Line)
    (single : ∀ line ∈ lines, '\n' ∉ line.text.toList) :
    filledLines (Line.render (String.ofList (List.replicate count ' ')) lines) =
      filledCode lines := by
  rw [filledLines, codeLines_render count lines single, List.filter_append]
  exact List.append_nil _

/-- Whether a text starts with a visible character that opens no comment. -/
def StartsVisibly (text : String) : Prop :=
  text.toList.head?.any (fun symbol => !symbol.isWhitespace && symbol != '/') = true

instance (text : String) : Decidable (StartsVisibly text) := inferInstanceAs (Decidable (_ = true))

/-- Whether a text ends in a visible character. -/
def EndsVisibly (text : String) : Prop := text.toList.getLast?.any (!·.isWhitespace) = true

instance (text : String) : Decidable (EndsVisibly text) := inferInstanceAs (Decidable (_ = true))

theorem StartsVisibly.append {left : String} (starts : StartsVisibly left) (right : String) :
    StartsVisibly (left ++ right) := by
  obtain ⟨first, here, visible⟩ := (Option.any_eq_true ..).mp starts
  rw [StartsVisibly, String.toList_append, List.head?_append, here]
  exact visible

theorem EndsVisibly.append (left : String) {right : String} (ends : EndsVisibly right) :
    EndsVisibly (left ++ right) := by
  obtain ⟨last, here, visible⟩ := (Option.any_eq_true ..).mp ends
  rw [EndsVisibly, String.toList_append, List.getLast?_append, here]
  exact visible

theorem endsVisibly_of_form {name : String} (form : hasIdentifierForm name.toList = true) :
    EndsVisibly name := by
  obtain ⟨first, rest, split, _⟩ := eq_cons_of_hasIdentifierForm form
  have nonempty : name.toList ≠ [] := by simp [split]
  have part := isIdentifierPart_of_hasIdentifierForm form (List.getLast_mem nonempty)
  rw [EndsVisibly, List.getLast?_eq_some_getLast nonempty, Option.any_some,
    not_isWhitespace_of_part part]
  rfl

theorem filledCode_comment {line : Line} (mark : isComment line.text.toList = true)
    (rest : List Line) : filledCode (line :: rest) = filledCode rest := by
  obtain ⟨behind, split⟩ := List.isPrefixOf_iff_prefix.mp mark
  have comment : isComment line.code = true := by
    rw [Line.code, ← split]
    exact isComment_trimmed behind
  simp [filledCode, comment]

theorem filledCode_blank (rest : List Line) : filledCode (Line.blank :: rest) = filledCode rest := rfl

/-- A line with visible ends is read as it stands. -/
theorem filledCode_code {line : Line} (starts : StartsVisibly line.text)
    (ends : EndsVisibly line.text) (rest : List Line) :
    filledCode (line :: rest) = line.text.toList :: filledCode rest := by
  obtain ⟨first, atFirst, visible⟩ := (Option.any_eq_true ..).mp starts
  obtain ⟨last, atLast, solid⟩ := (Option.any_eq_true ..).mp ends
  simp only [Bool.and_eq_true, Bool.not_eq_true', bne_iff_ne] at visible solid
  have code : line.code = line.text.toList := trimmed_eq_self atFirst atLast visible.1 solid
  have noComment : isComment line.text.toList = false := isComment_eq_false atFirst visible.2
  have filled : line.text.toList ≠ [] := by
    rintro empty
    simp [empty] at atFirst
  rw [filledCode, List.map_cons, code, List.filter_cons_of_pos (by simp [noComment]),
    List.filter_cons_of_pos (by simpa using filled)]
  rfl

theorem filledCode_header (table : Table) (style : Style) (rest : List Line) :
    filledCode (header table style ++ rest) = filledCode rest := by
  rw [header]
  split
  · exact filledCode_comment (by simp; rfl) rest
  · rfl

theorem filledCode_members (fields : List String) (rest : List Line) :
    filledCode (fields.map (fun field => (⟨2, "logic " ++ field ++ ";"⟩ : Line)) ++ rest) =
      fields.map (fun field => ("logic " ++ field ++ ";").toList) ++ filledCode rest := by
  induction fields with
  | nil => rfl
  | cons field fields ih =>
    rw [List.map_cons, List.cons_append, List.map_cons, List.cons_append, ← ih]
    apply filledCode_code
    · exact ((show StartsVisibly "logic " by decide).append field).append ";"
    · exact EndsVisibly.append _ (by decide)

end Filled

/-! ## The types package -/

section Package
variable {table : Table} {style : Style} (suits : style.Suits table)
include suits

theorem typesLines_unbroken : ∀ line ∈ typesLines table style, '\n' ∉ line.text.toList := by
  have package := (solid_package suits).1
  simp only [typesLines, List.forall_mem_append, List.forall_mem_cons, List.forall_mem_map]
  refine ⟨⟨⟨⟨fun line member => (header_inert table style line member).unbroken, ?_⟩, ?_, ?_, ?_,
    by simp⟩, fun field declared => ?_⟩, ?_, ?_, ?_, by simp⟩
  · intro line member
    split at member
    · obtain rfl := List.mem_singleton.mp member
      decide
    · cases member
  · exact ((show Unbroken "package " by decide).append package).append (by decide)
  · decide
  · decide
  · have name := (solid_of_isIdentifier (table.wellFormed.fields field declared)).1
    exact ((show Unbroken "logic " by decide).append name).append (by decide)
  · have name := (solid_of_isIdentifier table.wellFormed.typeName).1
    exact ((show Unbroken "\x7d " by decide).append name).append (by decide)
  · decide
  · exact (show Unbroken "endpackage : " by decide).append package

theorem filledCode_typesLines :
    filledCode (typesLines table style) =
      ("package " ++ style.packageName table.output.typeName ++ ";").toList ::
        "typedef struct packed \x7b".toList ::
          (table.output.fields.map (fun field => ("logic " ++ field ++ ";").toList) ++
            [("\x7d " ++ table.output.typeName ++ ";").toList,
              ("endpackage : " ++ style.packageName table.output.typeName).toList]) := by
  have blank : ∀ rest, filledCode ((if style.header then [Line.blank] else []) ++ rest) =
      filledCode rest := by
    intro rest
    split <;> rfl
  have closing : EndsVisibly ("endpackage : " ++ style.packageName table.output.typeName) :=
    EndsVisibly.append _ (endsVisibly_of_form suits.hasIdentifierForm_package)
  simp only [typesLines, toString_text, List.append_assoc, List.cons_append, List.nil_append]
  rw [filledCode_header, blank, filledCode_code, filledCode_blank, filledCode_code,
    filledCode_members, filledCode_code, filledCode_blank, filledCode_code]
  · rfl
  · exact (show StartsVisibly "endpackage : " by decide).append _
  · exact closing
  · exact ((show StartsVisibly "\x7d " by decide).append _).append _
  · exact EndsVisibly.append _ (by decide)
  · decide
  · decide
  · exact ((show StartsVisibly "package " by decide).append _).append _
  · exact EndsVisibly.append _ (by decide)

/-- The types package reads back as the fields in order, their type and the package. -/
theorem readPackage?_typesLines (count : Nat) :
    readPackage? (Line.render (String.ofList (List.replicate count ' ')) (typesLines table style)) =
      some ⟨style.packageName table.output.typeName, table.output.fields,
        table.output.typeName⟩ := by
  have package := readName?_enclosed "package " ";"
    (fun symbol => suits.isIdentifierPart_of_mem_package) (by decide)
  have members := readStruct?_members table.wellFormed.fields
    (fun symbol => isIdentifierPart_of_mem table.wellFormed.typeName)
    [("endpackage : " ++ style.packageName table.output.typeName).toList]
  rw [readPackage?, filledLines_render count _ (typesLines_unbroken suits),
    filledCode_typesLines suits]
  simp only [Option.bind_eq_bind, package, Option.bind_some, members, true_and, if_true]

end Package

/-! ## The header of the decoder -/

section Header
variable {table : Table} {style : Style} (suits : style.Suits table)
include suits

/-- The first lines of code in a decoder are its header, whatever follows. -/
theorem filledCode_decoderLines (logic : Logic) :
    ∃ behind, filledCode (decoderLines table logic style) =
      ("module " ++ table.moduleName).toList ::
        ("import " ++ style.packageName table.output.typeName ++ "::*;").toList ::
          "(".toList ::
            ("input  logic [" ++ toString (table.inputWidth - 1) ++ ":0] " ++ style.inputPort ++
              ",").toList ::
              ("output " ++ table.output.typeName ++ " " ++ style.outputPort).toList ::
                ");".toList :: behind := by
  have caption : ∀ rest, filledCode ((if style.header then
      [⟨0, s!"// Backend: {logic.backend.name}, {logic.guards.length} rule(s)."⟩, Line.blank]
      else []) ++ rest) = filledCode rest := by
    intro rest
    split
    · exact filledCode_comment (by simp; rfl) (Line.blank :: rest)
    · rfl
  have title := endsVisibly_of_form (hasIdentifierForm_of_isIdentifier table.wellFormed.moduleName)
  have port := endsVisibly_of_form (hasIdentifierForm_of_isIdentifier suits.outputPort)
  simp only [decoderLines, List.append_assoc, List.cons_append]
  rw [filledCode_header, caption, filledCode_code, filledCode_code, filledCode_code,
    filledCode_code, filledCode_code, filledCode_code]
  · exact ⟨_, rfl⟩
  · decide
  · decide
  · exact (((show StartsVisibly "output " by decide).append _).append _).append _
  · exact EndsVisibly.append _ port
  · exact ((((show StartsVisibly "input  logic [" by decide).append _).append _).append _).append _
  · exact EndsVisibly.append _ (by decide)
  · decide
  · decide
  · exact ((show StartsVisibly "import " by decide).append _).append _
  · exact EndsVisibly.append _ (by decide)
  · exact (show StartsVisibly "module " by decide).append _
  · exact EndsVisibly.append _ title

/-- The header of the decoder reads back as the names and the width it was written for. -/
theorem readHeader?_decoderLines (count : Nat) (logic : Logic) :
    readHeader? (Line.render (String.ofList (List.replicate count ' '))
        (decoderLines table logic style)) =
      some ⟨table.moduleName, style.packageName table.output.typeName, table.inputWidth - 1,
        style.inputPort, table.output.typeName, style.outputPort⟩ := by
  obtain ⟨behind, code⟩ := filledCode_decoderLines suits logic
  have title := readName?_last "module "
    (fun symbol => isIdentifierPart_of_mem table.wellFormed.moduleName)
  have package := readName?_enclosed "import " "::*;"
    (fun symbol => suits.isIdentifierPart_of_mem_package) (by decide)
  have input := readInput?_declared (table.inputWidth - 1)
    (fun symbol => isIdentifierPart_of_mem suits.inputPort)
  have output := readOutput?_declared
    (fun symbol => isIdentifierPart_of_mem table.wellFormed.typeName)
    (fun symbol => isIdentifierPart_of_mem suits.outputPort)
  rw [readHeader?, filledLines_render count _ (decoderLines_unbroken suits logic), code]
  simp only [Option.bind_eq_bind, title, package, input, output, Option.bind_some, and_self, if_true]

end Header

/-! ## The columns of assignments -/

section Columns
variable {table : Table} {style : Style}

/-- An assignment starts with the name of the port and a point. -/
theorem readAssignment?_starts {port : String} {line : List Char} {pair : String × Bool}
    (read : readAssignment? port line = some pair) :
    ∃ rest, line = port.toList ++ '.' :: rest := by
  rw [readAssignment?, Option.bind_eq_bind, Option.bind_eq_some_iff] at read
  obtain ⟨rest, behind, _⟩ := read
  obtain ⟨opening, split, same⟩ := List.dropPrefix?_eq_some_iff.mp behind
  rw [beq_iff_eq.mp same] at split
  exact ⟨rest, by simp [split]⟩

theorem readAssignment?_eq_none_of_not_mem {port : String} {line : List Char} (solid : '.' ∉ line) :
    readAssignment? port line = none := by
  refine Option.eq_none_iff_forall_ne_some.mpr fun pair read => solid ?_
  obtain ⟨rest, rfl⟩ := readAssignment?_starts read
  exact List.mem_append_right _ (List.mem_cons_self ..)

theorem readAssignment?_eq_none_of_isComment {port : String} (legal : isIdentifier port = true)
    {line : List Char} (comment : isComment line = true) : readAssignment? port line = none := by
  refine Option.eq_none_iff_forall_ne_some.mpr fun pair read => ?_
  obtain ⟨rest, rfl⟩ := readAssignment?_starts read
  obtain ⟨first, tail, characters, start, _⟩ := toList_of_isIdentifier legal
  have starts : (port.toList ++ '.' :: rest).head? = some first := by
    rw [characters]
    rfl
  rw [isComment_eq_false starts] at comment
  · cases comment
  · rintro rfl
    cases start

theorem assignedColumn?_shown (port : String) (count : Nat) (line : Line) :
    assignedColumn? port (line.shown count) =
      (readAssignment? port line.code).bind fun pair =>
        ((line.shown count).idxOf? '=').map (pair.1, ·) := by
  rw [assignedColumn?, Line.trimmed_shown]
  cases readAssignment? port line.code with
  | none => rfl
  | some pair => cases (line.shown count).idxOf? '=' <;> rfl

/-- What is left out of the columns: comments, and code without a point. -/
theorem assignedColumn?_eq_none {port : String} (legal : isIdentifier port = true) (count : Nat)
    {line : Line} (other : isComment line.code = true ∨ '.' ∉ line.code) :
    assignedColumn? port (line.shown count) = none := by
  rw [assignedColumn?_shown]
  rcases other with comment | solid
  · rw [readAssignment?_eq_none_of_isComment legal comment]
    rfl
  · rw [readAssignment?_eq_none_of_not_mem solid]
    rfl

theorem Line.Inert.assignedColumn?_eq_none {port : String} (legal : isIdentifier port = true)
    (count : Nat) {line : Line} (inert : line.Inert) :
    assignedColumn? port (line.shown count) = none :=
  SystemVerilog.assignedColumn?_eq_none legal count (inert.skipped.imp_right And.right)

theorem le_longest {names : List String} {name : String} (listed : name ∈ names) :
    name.length ≤ longest names := by
  have bounded : ∀ (lengths : List Nat) (start number : Nat), number ≤ start ∨ number ∈ lengths →
      number ≤ lengths.foldl max start := by
    intro lengths
    induction lengths with
    | nil => simp
    | cons length lengths ih =>
      intro start number reached
      apply ih
      rcases reached with below | here
      · omega
      · rcases List.mem_cons.mp here with rfl | later
        · omega
        · exact .inr later
  exact bounded _ 0 _ (.inr (List.mem_map_of_mem listed))

theorem idxOf?_append_cons {front : List Char} {symbol : Char} (absent : symbol ∉ front)
    (rest : List Char) : (front ++ symbol :: rest).idxOf? symbol = some front.length := by
  induction front with
  | nil => simp [List.idxOf?_cons]
  | cons first front ih =>
    rw [List.mem_cons, not_or] at absent
    rw [List.cons_append, List.idxOf?_cons, ih absent.2, if_neg (by simpa using Ne.symm absent.1)]
    rfl

/-- The column of the equals signs with a number of spaces per level of depth. -/
def assignColumn (style : Style) (count : Nat) (fields : List String) : Nat :=
  4 * count + (style.outputPort.length + 1 + (longest fields + 1))

/-- What stands in front of the equals sign of an assignment. -/
def assignTarget (style : Style) (width : Nat) (field : String) : List Char :=
  style.outputPort.toList ++ ['.'] ++
    (field.toList ++ List.replicate (width - field.length + 1) ' ')

theorem assignment_split (style : Style) (width : Nat) (field : String) (value : Bool) :
    ∃ rest, (assignment style width field value).toList =
      assignTarget style width field ++ '=' :: rest := by
  refine ⟨if value then " 1'b1;".toList else " 1'b0;".toList, ?_⟩
  rw [assignment_toList, assignTarget, List.append_assoc, List.append_assoc, List.append_assoc,
    List.append_assoc]
  cases value <;> rfl

theorem length_assignTarget {width : Nat} {field : String} (fits : field.length ≤ width) :
    (assignTarget style width field).length = style.outputPort.length + 1 + (width + 1) := by
  simp only [assignTarget, List.length_append, List.length_replicate, String.length_toList,
    List.length_singleton]
  omega

variable (suits : style.Suits table)
include suits

theorem not_mem_assignTarget (width : Nat) {field : String} (legal : isIdentifier field = true) :
    '=' ∉ assignTarget style width field := by
  have port : '=' ∉ style.outputPort.toList := not_mem_of_isIdentifier suits.outputPort (by decide)
  have name : '=' ∉ field.toList := not_mem_of_isIdentifier legal (by decide)
  have point : '=' ∉ ['.'] := by decide
  have padding : '=' ∉ List.replicate (width - field.length + 1) ' ' :=
    fun sign => absurd (List.eq_of_mem_replicate sign) (by decide)
  simp only [assignTarget, List.mem_append, port, point, name, padding, or_self, not_false_eq_true]

/-- Padding puts the equals sign of every assignment into one column. -/
theorem assignedColumn?_assignment (count : Nat) {field : String}
    (declared : field ∈ table.output.fields) (value : Bool) :
    assignedColumn? style.outputPort
        ((⟨4, assignment style (longest table.output.fields) field value⟩ : Line).shown count) =
      some (field, assignColumn style count table.output.fields) := by
  have legal := table.wellFormed.fields field declared
  have read := readAssignment?_assignment style (longest table.output.fields) legal value
  rw [← (code_assignment suits 4 _ field value).1] at read
  obtain ⟨rest, split⟩ := assignment_split style (longest table.output.fields) field value
  have filled : assignment style (longest table.output.fields) field value ≠ "" := by
    intro empty
    rw [empty] at split
    exact List.append_ne_nil_of_right_ne_nil _ (List.cons_ne_nil _ _) split.symm
  have indentation : '=' ∉ List.replicate (4 * count) ' ' :=
    fun sign => absurd (List.eq_of_mem_replicate sign) (by decide)
  have absent := List.not_mem_append indentation
    (not_mem_assignTarget suits (longest table.output.fields) legal)
  rw [assignedColumn?_shown, read, Line.shown, if_neg filled, split, ← List.append_assoc,
    idxOf?_append_cons absent, List.length_append, List.length_replicate,
    length_assignTarget (le_longest declared)]
  rfl

/-- An arm assigns the fields in order, and nothing else in it is an assignment. -/
theorem filterMap_assignedColumn?_armLines (count : Nat) (guard : Guard) :
    ((armLines table style guard).map (Line.shown count)).filterMap
        (assignedColumn? style.outputPort) =
      table.output.fields.map fun field => (field, assignColumn style count table.output.fields) := by
  have caption : isComment (⟨3, comment guard.name⟩ : Line).code = true := by
    rw [Line.code, comment, String.toList_append]
    exact isComment_trimmed _
  have label : '.' ∉ (⟨3, armLabel guard⟩ : Line).code := by
    rw [(code_armLabel 3 guard).1]
    exact (solid_armLabel guard).2
  have close : '.' ∉ (⟨3, "end"⟩ : Line).code := by decide
  have body : (table.output.fields.mapIdx fun position field => (⟨4, assignment style
        (longest table.output.fields) field (guard.asserts position)⟩ : Line)).filterMap
          (assignedColumn? style.outputPort ∘ Line.shown count) =
      table.output.fields.map fun field =>
        (field, assignColumn style count table.output.fields) := by
    have each : ∀ pair ∈ table.output.fields.zipIdx, assignedColumn? style.outputPort
        ((⟨4, assignment style (longest table.output.fields) pair.1 (guard.asserts pair.2)⟩ :
          Line).shown count) =
        some (pair.1, assignColumn style count table.output.fields) :=
      fun pair listed => assignedColumn?_assignment suits count
        (List.fst_mem_of_mem_zipIdx listed) _
    have columns := List.filterMap_eq_map_iff_forall_eq_some.mpr each
    rw [List.mapIdx_eq_zipIdx_map, List.filterMap_map]
    refine columns.trans ?_
    rw [← Function.comp_def (fun field => (field, assignColumn style count table.output.fields)),
      ← List.map_map, List.zipIdx_map_fst]
  rw [armLines, List.filterMap_map, List.filterMap_append, List.filterMap_append, body]
  simp only [List.filterMap_cons, List.filterMap_nil, Function.comp_apply,
    assignedColumn?_eq_none suits.outputPort count (.inl caption),
    assignedColumn?_eq_none suits.outputPort count (.inr label),
    assignedColumn?_eq_none suits.outputPort count (.inr close), List.nil_append, List.append_nil]

/-- The decoder assigns the fields in order once per guard, always in the same column. -/
theorem assignedColumns_decoderLines (logic : Logic) (count : Nat) :
    assignedColumns style.outputPort
        (Line.render (String.ofList (List.replicate count ' ')) (decoderLines table logic style)) =
      logic.guards.flatMap fun _ =>
        table.output.fields.map fun field => (field, assignColumn style count table.output.fields) := by
  obtain ⟨preface, closing, parts, front, back⟩ :=
    decoderLines_parts suits logic.backend logic.guards.length
  have silent : ∀ lines : List Line, (∀ line ∈ lines, line.Inert) →
      (lines.map (Line.shown count)).filterMap (assignedColumn? style.outputPort) = [] := by
    intro lines inert
    rw [List.filterMap_eq_nil_iff, List.forall_mem_map]
    exact fun line member => (inert line member).assignedColumn?_eq_none suits.outputPort count
  have default : '.' ∉ (⟨3, "default: begin"⟩ : Line).code := by decide
  have clear : '.' ∉ (⟨4, style.outputPort ++ " = '0;"⟩ : Line).code := by
    have solid := (solid_of_isIdentifier suits.outputPort).append (show Solid " = '0;" by decide)
    exact fun point => solid.2 ((trimmed_sublist _).subset point)
  have close : '.' ∉ (⟨3, "end"⟩ : Line).code := by decide
  have ending : assignedColumn? style.outputPort [] = none := by
    rw [assignedColumn?, trimmed_nil, readAssignment?_eq_none_of_not_mem (by decide)]
    rfl
  rw [assignedColumns, textLines_render count _ (decoderLines_unbroken suits logic),
    parts logic rfl rfl]
  simp only [List.map_append, List.filterMap_append, List.map_cons, List.filterMap_cons,
    List.filterMap_nil, silent _ front, silent _ back, ending,
    assignedColumn?_eq_none suits.outputPort count (.inr default),
    assignedColumn?_eq_none suits.outputPort count (.inr clear),
    assignedColumn?_eq_none suits.outputPort count (.inr close), List.nil_append, List.append_nil,
    List.map_flatMap, List.filterMap_flatMap, filterMap_assignedColumn?_armLines suits count]

end Columns

end DecoderGen.SystemVerilog

namespace DecoderGen

open SystemVerilog

/-- The two files of a compiled table agree with each other and with the schema. The types file is
the package the decoder imports, named like its file, and declares the fields in order under the
type of the decoder's output. The decoder takes an input of the width of the table; each of its arms
assigns the fields in order, each once, and all these assignments have one column. -/
theorem Table.compiled_files_agree (table : Table) (config : Config) (count : Nat)
    (compilation : Compilation)
    (compiled : table.compile { config with style := config.style.withSpaces count } =
      .ok compilation) :
    ∃ package high column arms,
      readPackage? compilation.artifacts.types.contents =
        some ⟨package, table.output.fields, table.output.typeName⟩ ∧
      compilation.artifacts.types.fileName = package ++ ".sv" ∧
      high + 1 = table.inputWidth ∧
      readHeader? compilation.artifacts.decoder.contents =
        some ⟨table.moduleName, package, high, config.style.inputPort, table.output.typeName,
          config.style.outputPort⟩ ∧
      table.output.fields.Nodup ∧
      readCase? config.style.outputPort compilation.artifacts.decoder.contents = some arms ∧
      arms.length = compilation.logic.guards.length ∧
      (∀ arm ∈ arms, arm.assigned.map Prod.fst = table.output.fields) ∧
      assignedColumns config.style.outputPort compilation.artifacts.decoder.contents =
        arms.flatMap fun arm => arm.assigned.map fun pair => (pair.1, column) := by
  obtain ⟨styled, resolved, rfl, _, _, rfl⟩ := (table.compile_eq_ok_iff _ _).mp compiled
  have suits := (Style.fault?_eq_none_iff _ _).mp styled
  have width := resolved.table.inputWidth_pos
  have fields := CaseArm.map_fst_ofGuard resolved.table.output.fields
  have columns := assignedColumns_decoderLines suits resolved.nativeLogic count
  refine ⟨_, _, assignColumn config.style count resolved.table.output.fields, _,
    readPackage?_typesLines suits count, rfl,
    Nat.sub_add_cancel width, readHeader?_decoderLines suits count resolved.nativeLogic,
    resolved.table.wellFormed.fields_nodup, readCase?_decoderLines suits resolved.nativeLogic count,
    List.length_map _, ?_, ?_⟩
  · intro arm member
    obtain ⟨guard, _, rfl⟩ := List.mem_map.mp member
    exact fields guard
  · refine columns.trans ?_
    rw [List.flatMap_map]
    refine List.flatMap_congr fun guard _ => ?_
    rw [← Function.comp_def (fun field =>
      (field, assignColumn config.style count resolved.table.output.fields)), ← List.map_map, fields]
    rfl

/-- Names that look like code and fields of different lengths put nothing out of place. -/
theorem disguised_files_agree :
    ∃ package high column arms,
      readPackage? (disguised.compilation (Style.withSpaces {} 3)).artifacts.types.contents =
        some ⟨package, ["a", "is_load"], "ctrl_t"⟩ ∧
      (disguised.compilation (Style.withSpaces {} 3)).artifacts.types.fileName = package ++ ".sv" ∧
      high + 1 = 3 ∧
      readHeader? (disguised.compilation (Style.withSpaces {} 3)).artifacts.decoder.contents =
        some ⟨"begin_0", package, high, "instr_i", "ctrl_t", "decode_o"⟩ ∧
      ["a", "is_load"].Nodup ∧
      readCase? "decode_o" (disguised.compilation (Style.withSpaces {} 3)).artifacts.decoder.contents =
        some arms ∧
      arms.length = 2 ∧
      (∀ arm ∈ arms, arm.assigned.map Prod.fst = ["a", "is_load"]) ∧
      assignedColumns "decode_o"
          (disguised.compilation (Style.withSpaces {} 3)).artifacts.decoder.contents =
        arms.flatMap fun arm => arm.assigned.map fun pair => (pair.1, column) := by
  have compiled : disguised.table.compile { style := Style.withSpaces {} 3 } =
      .ok (disguised.compilation (Style.withSpaces {} 3)) :=
    (Table.compile_eq_ok_iff _ _ _).mpr ⟨by decide +kernel, disguised, rfl, nofun, rfl, rfl⟩
  exact Table.compiled_files_agree disguised.table {} 3 _ compiled

end DecoderGen
