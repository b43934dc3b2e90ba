import DecoderGen.Proofs.CodeLines
import DecoderGen.Proofs.CompileStages
import DecoderGen.Proofs.LegalNames

/-! # The names in generated code

Besides comments, generated code has only fixed words of the language, literals, and the names that
the table and the style give to the module, the package, the output type, its fields and the ports.
All of these names have the form of an identifier, and all but one were checked against the reserved
words. The package name is a concatenation of two checked parts; it is a legal name exactly when it
happens to be no reserved word itself.
-/

namespace DecoderGen

namespace SystemVerilog

/-- The characters that stand between words of code. -/
def separators : List Char := " ;:,.=*()[]\x7b\x7d".toList

/-- Whether a character stands between words of code. -/
def isSeparator (symbol : Char) : Bool := separators.contains symbol

/-- The words of code. Between two neighbouring separators stands the empty word. -/
def words (code : String) : List (List Char) := code.toList.splitOnP isSeparator

/-- Every word of a code that looks like a name is one of the given ones. -/
def Spells (known : List String) (code : String) : Prop :=
  ∀ word ∈ words code, hasIdentifierForm word = true → String.ofList word ∈ known

instance (known : List String) (code : String) : Decidable (Spells known code) :=
  inferInstanceAs (Decidable (∀ word ∈ words code, _ → _))

/-- Whether a code starts between words. -/
def Opens (code : String) : Prop := code.toList.head?.any isSeparator = true

instance (code : String) : Decidable (Opens code) := inferInstanceAs (Decidable (_ = true))

/-- Whether a code ends between words. -/
def Closes (code : String) : Prop := code.toList.getLast?.any isSeparator = true

instance (code : String) : Decidable (Closes code) := inferInstanceAs (Decidable (_ = true))

/-- The words of the language that generated code uses. -/
def fixedWords : List String :=
  ["package", "typedef", "struct", "packed", "logic", "endpackage", "module", "import", "input",
    "output", "always_comb", "casez", "begin", "end", "default", "endcase", "endmodule"]

example : ∀ word ∈ fixedWords, isReserved word = true := by decide +kernel

theorem isSeparator_eq_false_of_part {symbol : Char} (part : isIdentifierPart symbol = true) :
    isSeparator symbol = false := by
  have foreign : separators.all (!isIdentifierPart ·) = true := by decide
  rw [← Bool.not_eq_true]
  intro separator
  have outside := List.all_eq_true.mp foreign symbol (List.contains_iff_mem.mp separator)
  simp [part] at outside

section Words
variable {known : List String} {left right code : String}

theorem Closes.append (closes : Closes right) : Closes (left ++ right) := by
  obtain ⟨last, here, separator⟩ := (Option.any_eq_true ..).mp closes
  rw [Closes, String.toList_append, List.getLast?_append, here]
  exact separator

theorem Spells.append_of_closes (first : Spells known left) (closes : Closes left)
    (second : Spells known right) : Spells known (left ++ right) := by
  obtain ⟨last, here, separator⟩ := (Option.any_eq_true ..).mp closes
  obtain ⟨front, split⟩ := List.getLast?_eq_some_iff.mp here
  intro word member
  rw [words, String.toList_append, split, List.append_assoc, List.singleton_append,
    List.splitOnP_append_cons _ _ separator, List.mem_append] at member
  rcases member with member | member
  · apply first word
    rw [words, split, List.splitOnP_append_cons _ _ separator]
    exact List.mem_append_left _ member
  · exact second word member

theorem Spells.append_of_opens (first : Spells known left) (second : Spells known right)
    (opens : Opens right) : Spells known (left ++ right) := by
  obtain ⟨start, here, separator⟩ := (Option.any_eq_true ..).mp opens
  obtain ⟨rest, split⟩ := List.head?_eq_some_iff.mp here
  intro word member
  rw [words, String.toList_append, split, List.splitOnP_append_cons _ _ separator,
    List.mem_append] at member
  rcases member with member | member
  · exact first word member
  · apply second word
    rw [words, split, ← List.nil_append (start :: rest), List.splitOnP_append_cons _ _ separator]
    exact List.mem_append_right _ member

/-- A code without separators is one word. -/
theorem spells_of_solid (solid : ∀ symbol ∈ code.toList, isSeparator symbol = false)
    (listed : hasIdentifierForm code.toList = true → code ∈ known) : Spells known code := by
  intro word member form
  rw [words, List.splitOnP_eq_singleton solid, List.mem_singleton] at member
  subst member
  rw [String.ofList_toList]
  exact listed form

theorem spells_blanks (count : Nat) : Spells known (String.ofList (List.replicate count ' ')) := by
  intro word member
  rw [words, String.toList_ofList] at member
  induction count with
  | zero =>
    obtain rfl := List.mem_singleton.mp member
    exact nofun
  | succ count ih =>
    rw [List.replicate_succ, ← List.nil_append (' ' :: _),
      List.splitOnP_append_cons _ _ (by decide)] at member
    rcases List.mem_append.mp member with member | member
    · obtain rfl := List.mem_singleton.mp member
      exact nofun
    · exact ih member

theorem isSeparator_eq_false_of_isDigit {symbol : Char} (digit : symbol.isDigit = true) :
    isSeparator symbol = false := by
  apply isSeparator_eq_false_of_part
  simp [isIdentifierPart, Char.isAlphanum, digit]

theorem isDigit_of_mem_toString {number : Nat} {symbol : Char}
    (member : symbol ∈ (toString number).toList) : symbol.isDigit = true := by
  rw [Nat.toString_eq_repr, Nat.toList_repr] at member
  exact Nat.isDigit_of_mem_toDigits (by decide) (by decide) member

/-- A number is a word that looks like no name. -/
theorem spells_toString (number : Nat) : Spells known (toString number) := by
  apply spells_of_solid
  · intro symbol member
    exact isSeparator_eq_false_of_isDigit (isDigit_of_mem_toString member)
  · intro form
    obtain ⟨first, rest, split, start, _⟩ := eq_cons_of_hasIdentifierForm form
    have digit : first.isDigit = true := isDigit_of_mem_toString (split ▸ List.mem_cons_self ..)
    rw [isIdentifierStart_eq_false_of_isDigit digit] at start
    cases start

end Words

end SystemVerilog

/-- The names that the generated files of a table declare or refer to. -/
def Table.generatedNames (table : Table) (style : Style) : List String :=
  [table.moduleName, style.packageName table.output.typeName, table.output.typeName,
    style.inputPort, style.outputPort] ++ table.output.fields

namespace SystemVerilog

/-- What generated code of a table may spell. -/
def codeWords (table : Table) (style : Style) : List String :=
  fixedWords ++ table.generatedNames style

/-- Whether a line is a comment, or code in which the words that look like names are known. -/
def Line.Spelled (known : List String) (line : Line) : Prop :=
  isComment line.text.toList = true ∨ Spells known line.text

section Lines
variable {table : Table} {style : Style}

theorem spells_fixed {code : String} (fixed : Spells fixedWords code) :
    Spells (codeWords table style) code :=
  fun word member form => List.mem_append_left _ (fixed word member form)

theorem spells_name {name : String} (listed : name ∈ table.generatedNames style)
    (parts : ∀ symbol ∈ name.toList, isIdentifierPart symbol = true) :
    Spells (codeWords table style) name :=
  spells_of_solid (fun symbol member => isSeparator_eq_false_of_part (parts symbol member))
    fun _ => List.mem_append_right _ listed

/-- A name between fixed code. -/
theorem spells_enclosed {front name back : String} (first : Spells fixedWords front)
    (closes : Closes front) (middle : Spells (codeWords table style) name)
    (last : Spells fixedWords back) (opens : Opens back) :
    Spells (codeWords table style) (front ++ name ++ back) :=
  ((spells_fixed first).append_of_closes closes middle).append_of_opens (spells_fixed last) opens

theorem spells_moduleName : Spells (codeWords table style) table.moduleName :=
  spells_name (by simp [Table.generatedNames])
    fun _ => isIdentifierPart_of_mem table.wellFormed.moduleName

theorem spells_typeName : Spells (codeWords table style) table.output.typeName :=
  spells_name (by simp [Table.generatedNames])
    fun _ => isIdentifierPart_of_mem table.wellFormed.typeName

theorem spells_field {field : String} (declared : field ∈ table.output.fields) :
    Spells (codeWords table style) field :=
  spells_name (List.mem_append_right _ declared)
    fun _ => isIdentifierPart_of_mem (table.wellFormed.fields field declared)

theorem spells_padRight (width : Nat) {field : String} (declared : field ∈ table.output.fields) :
    Spells (codeWords table style) (padRight width field) := by
  unfold padRight
  cases width - field.length with
  | zero => simpa using spells_field declared
  | succ count =>
    refine (spells_field declared).append_of_opens (spells_blanks _) ?_
    rw [Opens, String.toList_ofList, List.replicate_succ]
    rfl

theorem spells_blank : Spells (codeWords table style) Line.blank.text := spells_fixed (by decide)

theorem header_spelled :
    ∀ line ∈ header table style, line.Spelled (codeWords table style) := by
  intro line member
  rw [header] at member
  split at member
  · obtain rfl := List.mem_singleton.mp member
    exact .inl (by simp; rfl)
  · cases member

/-- The literal of a label is one word, and its apostrophe keeps it from looking like a name. -/
theorem spells_armLabel (guard : Guard) : Spells (codeWords table style) (armLabel guard) := by
  have literal : Spells (codeWords table style)
      (toString guard.pattern.width ++ "'b" ++ guard.pattern.casez) := by
    apply spells_of_solid
    · intro symbol member
      rw [String.toList_append, String.toList_append, List.append_assoc, List.mem_append,
        List.mem_append] at member
      rcases member with digit | mark | digit
      · exact isSeparator_eq_false_of_isDigit (isDigit_of_mem_toString digit)
      · have marks : "'b".toList.all (!isSeparator ·) = true := by decide
        simpa using List.all_eq_true.mp marks symbol mark
      · rw [Pattern.casez, String.toList_ofList] at digit
        obtain ⟨bit, _, rfl⟩ := List.mem_map.mp digit
        cases bit <;> decide
    · intro form
      exact absurd (isIdentifierPart_of_hasIdentifierForm form
        (show '\'' ∈ _ by simp)) (by decide)
  exact literal.append_of_opens (spells_fixed (by decide)) (by decide)

variable (suits : style.Suits table)
include suits

theorem spells_package :
    Spells (codeWords table style) (style.packageName table.output.typeName) :=
  spells_name (by simp [Table.generatedNames]) fun _ => suits.isIdentifierPart_of_mem_package

theorem spells_inputPort : Spells (codeWords table style) style.inputPort :=
  spells_name (by simp [Table.generatedNames]) fun _ => isIdentifierPart_of_mem suits.inputPort

theorem spells_outputPort : Spells (codeWords table style) style.outputPort :=
  spells_name (by simp [Table.generatedNames]) fun _ => isIdentifierPart_of_mem suits.outputPort

theorem typesLines_spelled :
    ∀ line ∈ typesLines table style, line.Spelled (codeWords table style) := by
  have package := spells_package suits
  simp only [typesLines, List.forall_mem_append, List.forall_mem_cons, List.forall_mem_map]
  refine ⟨⟨⟨⟨header_spelled, ?_⟩, ?_, ?_, ?_, by simp⟩, ?_⟩, ?_, ?_, ?_, by simp⟩
  · intro line member
    split at member
    · obtain rfl := List.mem_singleton.mp member
      exact .inr spells_blank
    · cases member
  · exact .inr (spells_enclosed (by decide) (by decide) package (by decide) (by decide))
  · exact .inr (spells_fixed (by decide))
  · exact .inr (spells_fixed (by decide))
  · intro field declared
    exact .inr
      (spells_enclosed (by decide) (by decide) (spells_field declared) (by decide) (by decide))
  · exact .inr (spells_enclosed (by decide) (by decide) spells_typeName (by decide) (by decide))
  · exact .inr (spells_fixed (by decide))
  · exact .inr ((spells_fixed (by decide)).append_of_closes (by decide) package)

theorem spells_assignment (width : Nat) {field : String} (declared : field ∈ table.output.fields)
    (value : Bool) : Spells (codeWords table style) (assignment style width field value) := by
  have port : Spells (codeWords table style) (style.outputPort ++ ".") :=
    (spells_outputPort suits).append_of_opens (spells_fixed (by decide)) (by decide)
  have member := port.append_of_closes (Closes.append (by decide)) (spells_padRight width declared)
  have target := member.append_of_opens (spells_fixed (show Spells fixedWords " = " by decide))
    (by decide)
  refine target.append_of_closes (Closes.append (by decide)) (spells_fixed ?_)
  cases value <;> decide

theorem armLines_spelled (guard : Guard) :
    ∀ line ∈ armLines table style guard, line.Spelled (codeWords table style) := by
  simp only [armLines, List.forall_mem_append, List.forall_mem_cons]
  refine ⟨⟨⟨.inl ?_, .inr (spells_armLabel guard), by simp⟩, ?_⟩, .inr (spells_fixed (by decide)),
    by simp⟩
  · rw [comment, String.toList_append]
    rfl
  · intro line member
    obtain ⟨position, bound, rfl⟩ := List.mem_mapIdx.mp member
    exact .inr (spells_assignment suits _ (List.getElem_mem bound) _)

theorem decoderLines_spelled (logic : Logic) :
    ∀ line ∈ decoderLines table logic style, line.Spelled (codeWords table style) := by
  have package := spells_package suits
  have input := spells_inputPort suits
  have output := spells_outputPort suits
  simp only [decoderLines, List.forall_mem_append, List.forall_mem_cons, List.forall_mem_flatMap]
  refine ⟨⟨⟨⟨header_spelled, ?_⟩, ?_, ?_, ?_, ?_, ?_, ?_, ?_, ?_, ?_, by simp⟩,
    fun guard _ => armLines_spelled suits guard⟩, ?_, ?_, ?_, ?_, ?_, ?_, ?_, by simp⟩
  · intro line member
    split at member
    · rcases List.mem_pair.mp member with rfl | rfl
      · exact .inl (by simp; rfl)
      · exact .inr spells_blank
    · cases member
  · exact .inr ((spells_fixed (by decide)).append_of_closes (by decide) spells_moduleName)
  · exact .inr (spells_enclosed (by decide) (by decide) package (by decide) (by decide))
  · exact .inr (spells_fixed (by decide))
  · have range : Spells (codeWords table style)
        ("input  logic [" ++ toString (table.inputWidth - 1) ++ ":0] ") :=
      spells_enclosed (by decide) (by decide) (spells_toString _) (by decide) (by decide)
    have port := range.append_of_closes (Closes.append (by decide)) input
    exact .inr (port.append_of_opens (spells_fixed (by decide)) (by decide))
  · have type : Spells (codeWords table style) ("output " ++ table.output.typeName ++ " ") :=
      spells_enclosed (by decide) (by decide) spells_typeName (by decide) (by decide)
    exact .inr (type.append_of_closes (Closes.append (by decide)) output)
  · exact .inr (spells_fixed (by decide))
  · exact .inr spells_blank
  · exact .inr (spells_fixed (by decide))
  · exact .inr (spells_enclosed (by decide) (by decide) input (by decide) (by decide))
  · exact .inr (spells_fixed (by decide))
  · exact .inr (output.append_of_opens (spells_fixed (by decide)) (by decide))
  · exact .inr (spells_fixed (by decide))
  · exact .inr (spells_fixed (by decide))
  · exact .inr (spells_fixed (by decide))
  · exact .inr spells_blank
  · exact .inr ((spells_fixed (by decide)).append_of_closes (by decide) spells_moduleName)

end Lines
end SystemVerilog

namespace Style.Suits

variable {style : Style} {table : Table} (suits : style.Suits table)
include suits

/-- Every name but that of the package was checked as a whole. -/
theorem isIdentifier_of_mem_generatedNames {name : String}
    (member : name ∈ table.generatedNames style)
    (other : name ≠ style.packageName table.output.typeName) : isIdentifier name = true := by
  simp only [Table.generatedNames, List.mem_append, List.mem_cons, List.not_mem_nil,
    or_false] at member
  rcases member with (rfl | same | rfl | rfl | rfl) | declared
  · exact table.wellFormed.moduleName
  · exact absurd same other
  · exact table.wellFormed.typeName
  · exact suits.inputPort
  · exact suits.outputPort
  · exact table.wellFormed.fields name declared

theorem generatedNames_legal_iff :
    (∀ name ∈ table.generatedNames style, isIdentifier name = true) ↔
      style.packageName table.output.typeName ∉ reservedWords := by
  constructor
  · intro legal
    have package := legal (style.packageName table.output.typeName) (by simp [Table.generatedNames])
    exact ((isIdentifier_eq_true_iff _).mp package).2
  · intro free name member
    by_cases same : name = style.packageName table.output.typeName
    · rw [same, isIdentifier_eq_true_iff]
      exact ⟨suits.hasIdentifierForm_package, free⟩
    · exact suits.isIdentifier_of_mem_generatedNames member same

end Style.Suits

/-- What compiling makes sure of about names. Code spells nothing but fixed words and the generated
names; each of these has the form of an identifier; all of them are legal exactly when the package
name is no reserved word; and the two files have different names. -/
theorem Table.compiled_names_legal_iff (table : Table) (config : Config) (compilation : Compilation)
    (compiled : table.compile config = .ok compilation) :
    (compilation.artifacts.types.contents = SystemVerilog.Line.render config.style.indent
        (SystemVerilog.typesLines table config.style) ∧
      compilation.artifacts.decoder.contents = SystemVerilog.Line.render config.style.indent
        (SystemVerilog.decoderLines table compilation.logic config.style)) ∧
    (∀ line ∈ SystemVerilog.typesLines table config.style ++
        SystemVerilog.decoderLines table compilation.logic config.style,
      line.Spelled (SystemVerilog.codeWords table config.style)) ∧
    (∀ name ∈ table.generatedNames config.style, hasIdentifierForm name.toList = true) ∧
    ((∀ name ∈ table.generatedNames config.style, isIdentifier name = true) ↔
      config.style.packageName table.output.typeName ∉ reservedWords) ∧
    compilation.artifacts.types.fileName ≠ compilation.artifacts.decoder.fileName := by
  obtain ⟨styled, resolved, rfl, _, _, rfl⟩ := (table.compile_eq_ok_iff _ _).mp compiled
  have suits := (config.style.fault?_eq_none_iff resolved.table).mp styled
  refine ⟨⟨rfl, rfl⟩, ?_, fun name member => ?_, suits.generatedNames_legal_iff, fun same => ?_⟩
  · rw [List.forall_mem_append]
    exact ⟨SystemVerilog.typesLines_spelled suits, SystemVerilog.decoderLines_spelled suits _⟩
  · by_cases package : name = config.style.packageName resolved.table.output.typeName
    · exact package ▸ suits.hasIdentifierForm_package
    · exact hasIdentifierForm_of_isIdentifier
        (suits.isIdentifier_of_mem_generatedNames member package)
  · exact suits.package ((String.append_left_inj ".sv").mp same)

/-- A table whose type name is the first half of a reserved word. -/
def halfWordDraft : Draft where
  moduleName := "dec"
  width := 1
  output := ⟨"alw", ["a"]⟩
  rules := []

/-- The table of the half word, resolved. -/
def halfWord : Resolved :=
  ⟨⟨halfWordDraft, halfWordDraft.fault?_eq_none_iff.mp (by decide +kernel)⟩, by decide +kernel⟩

/-- With the default suffix the half word compiles to legal names. -/
theorem halfWord_names_legal :
    halfWord.table.compile {} = .ok (halfWord.compilation {}) ∧
    ∀ name ∈ halfWord.table.generatedNames {}, isIdentifier name = true := by
  have compiled : halfWord.table.compile {} = .ok (halfWord.compilation {}) :=
    (Table.compile_eq_ok_iff _ _ _).mpr ⟨by decide +kernel, halfWord, rfl, nofun, rfl, rfl⟩
  have legal := (Table.compiled_names_legal_iff _ _ _ compiled).2.2.2.1
  have free : "alw_pkg" ∉ reservedWords := by
    rw [← isReserved_eq_true_iff]
    decide +kernel
  exact ⟨compiled, legal.mpr free⟩

/-- With the other half as its suffix the half word compiles, and its package is called `always`. -/
theorem halfWord_package_reserved :
    halfWord.table.compile { style := { packageSuffix := "ays" } } =
        .ok (halfWord.compilation { packageSuffix := "ays" }) ∧
      "always" ∈ halfWord.table.generatedNames { packageSuffix := "ays" } ∧
        isIdentifier "always" = false := by
  refine ⟨?_, by decide +kernel, by decide +kernel⟩
  exact (Table.compile_eq_ok_iff _ _ _).mpr ⟨by decide +kernel, halfWord, rfl, nofun, rfl, rfl⟩

end DecoderGen
