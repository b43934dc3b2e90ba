import DecoderGen.Config
import Mathlib.Logic.Basic

/-! # Names that reach generated text

An identifier is made of a few characters only, so it holds no blank, no line break and none of the
punctuation of generated text. The check of a style is a conjunction of facts about the names that a
style adds to those of a table.
-/

namespace DecoderGen

/-- Taking a class of characters stops at the first one outside. -/
theorem takeWhile_append_of_head? {p : Char → Bool} {front rest : List Char}
    (inside : ∀ symbol ∈ front, p symbol = true) (outside : rest.head?.any p = false) :
    (front ++ rest).takeWhile p = front ∧ (front ++ rest).dropWhile p = rest := by
  rw [List.takeWhile_append_of_pos inside, List.dropWhile_append_of_pos inside]
  cases rest with
  | nil => simp
  | cons stop rest =>
    have stops : ¬ p stop = true := by simpa using outside
    rw [List.takeWhile_cons_of_neg stops, List.dropWhile_cons_of_neg stops, List.append_nil]
    exact ⟨rfl, rfl⟩

theorem isIdentifierPart_of_start {symbol : Char} (start : isIdentifierStart symbol = true) :
    isIdentifierPart symbol = true := by
  rcases Bool.or_eq_true .. ▸ start with letter | underscore
  · simp [isIdentifierPart, Char.isAlphanum, letter]
  · simp [isIdentifierPart, underscore]

theorem isIdentifierStart_eq_false_of_isDigit {symbol : Char} (digit : symbol.isDigit = true) :
    isIdentifierStart symbol = false := by
  have below : symbol.val.toNat ≤ 57 := (Char.isDigit_iff_toNat.mp digit).2
  rw [← Bool.not_eq_true]
  intro start
  rcases Bool.or_eq_true .. ▸ start with letter | underscore
  · have above : 65 ≤ symbol.val := by
      rcases Bool.or_eq_true .. ▸ letter with upper | lower
      · exact (of_decide_eq_true upper).1
      · have further : 97 ≤ symbol.val := of_decide_eq_true ((Bool.and_eq_true _ _).mp lower).1
        exact UInt32.le_trans (by decide) further
    have bound : 65 ≤ symbol.val.toNat := UInt32.le_iff_toNat_le.mp above
    omega
  · obtain rfl := beq_iff_eq.mp underscore
    cases digit

theorem not_isWhitespace_of_part {symbol : Char} (part : isIdentifierPart symbol = true) :
    symbol.isWhitespace = false := by
  rw [← Bool.not_eq_true]
  intro blank
  simp only [Char.isWhitespace, Bool.or_eq_true, decide_eq_true_eq] at blank
  rcases blank with ((rfl | rfl) | rfl) | rfl <;> simp [isIdentifierPart] at part

/-- The characters of an identifier: one that may start it, then ones that may follow. -/
theorem eq_cons_of_hasIdentifierForm {characters : List Char}
    (form : hasIdentifierForm characters = true) :
    ∃ first rest, characters = first :: rest ∧ isIdentifierStart first = true ∧
      ∀ symbol ∈ rest, isIdentifierPart symbol = true := by
  cases characters with
  | nil => cases form
  | cons first rest =>
    simp only [hasIdentifierForm, Bool.and_eq_true, List.all_eq_true] at form
    exact ⟨first, rest, rfl, form.1, form.2⟩

theorem isIdentifierPart_of_hasIdentifierForm {characters : List Char}
    (form : hasIdentifierForm characters = true) {symbol : Char} (member : symbol ∈ characters) :
    isIdentifierPart symbol = true := by
  obtain ⟨first, rest, rfl, start, parts⟩ := eq_cons_of_hasIdentifierForm form
  rcases List.mem_cons.mp member with rfl | later
  · exact isIdentifierPart_of_start start
  · exact parts symbol later

theorem isIdentifier_eq_true_iff (name : String) :
    isIdentifier name = true ↔ hasIdentifierForm name.toList = true ∧ name ∉ reservedWords := by
  rw [isIdentifier, Bool.and_eq_true, Bool.not_eq_true', ← Bool.not_eq_true, isReserved_eq_true_iff]

theorem hasIdentifierForm_of_isIdentifier {name : String} (legal : isIdentifier name = true) :
    hasIdentifierForm name.toList = true :=
  (Bool.and_eq_true .. ▸ legal).1

theorem toList_of_isIdentifier {name : String} (legal : isIdentifier name = true) :
    ∃ first rest, name.toList = first :: rest ∧ isIdentifierStart first = true ∧
      ∀ symbol ∈ rest, isIdentifierPart symbol = true :=
  eq_cons_of_hasIdentifierForm (hasIdentifierForm_of_isIdentifier legal)

theorem isIdentifierPart_of_mem {name : String} (legal : isIdentifier name = true) {symbol : Char}
    (member : symbol ∈ name.toList) : isIdentifierPart symbol = true :=
  isIdentifierPart_of_hasIdentifierForm (hasIdentifierForm_of_isIdentifier legal) member

theorem not_mem_of_isIdentifier {name : String} (legal : isIdentifier name = true) {symbol : Char}
    (foreign : isIdentifierPart symbol = false) : symbol ∉ name.toList := by
  intro member
  rw [isIdentifierPart_of_mem legal member] at foreign
  cases foreign

namespace Style

/-- What a style has to satisfy to serve a table. -/
structure Suits (style : Style) (table : Table) : Prop where
  inputPort : isIdentifier style.inputPort = true
  outputPort : isIdentifier style.outputPort = true
  ports : style.inputPort ≠ style.outputPort
  inputPort_ne_type : style.inputPort ≠ table.output.typeName
  outputPort_ne_type : style.outputPort ≠ table.output.typeName
  suffix : isSuffix style.packageSuffix = true
  package : style.packageName table.output.typeName ≠ table.moduleName

/-- The scan for faults finds none exactly when the style suits the table. -/
theorem fault?_eq_none_iff (style : Style) (table : Table) :
    style.fault? table = none ↔ style.Suits table := by
  simp only [fault?, Option.orElse_eq_orElse, Option.orElse_eq_or, Option.or_eq_none_iff,
    Option.map_eq_none_iff, identifierFault?_eq_none_iff, ite_eq_right_iff, ite_eq_left_iff,
    reduceCtorEq, imp_false, not_not]
  constructor
  · rintro ⟨input, output, ports, inputType, outputType, suffix, package⟩
    exact ⟨input, output, ports, inputType, outputType, by simpa using suffix, package⟩
  · intro suits
    exact ⟨suits.inputPort, suits.outputPort, suits.ports, suits.inputPort_ne_type,
      suits.outputPort_ne_type, by simpa using suits.suffix, suits.package⟩

/-- A package name holds identifier characters only. -/
theorem Suits.isIdentifierPart_of_mem_package {style : Style} {table : Table}
    (suits : style.Suits table) {symbol : Char}
    (member : symbol ∈ (style.packageName table.output.typeName).toList) :
    isIdentifierPart symbol = true := by
  rw [packageName, String.toList_append, List.mem_append] at member
  rcases member with inType | inSuffix
  · exact isIdentifierPart_of_mem table.wellFormed.typeName inType
  · have parts := (Bool.and_eq_true .. ▸ suits.suffix).2
    exact List.all_eq_true.mp parts symbol inSuffix

/-- The two parts of a package name make up the form of an identifier. -/
theorem Suits.hasIdentifierForm_package {style : Style} {table : Table}
    (suits : style.Suits table) :
    hasIdentifierForm (style.packageName table.output.typeName).toList = true := by
  obtain ⟨first, rest, split, start, _⟩ := toList_of_isIdentifier table.wellFormed.typeName
  have characters : (style.packageName table.output.typeName).toList =
      first :: (rest ++ style.packageSuffix.toList) := by
    rw [packageName, String.toList_append, split, List.cons_append]
  rw [characters, hasIdentifierForm, Bool.and_eq_true, List.all_eq_true]
  refine ⟨start, fun symbol member => suits.isIdentifierPart_of_mem_package ?_⟩
  rw [characters]
  exact List.mem_cons_of_mem _ member

end Style
end DecoderGen
