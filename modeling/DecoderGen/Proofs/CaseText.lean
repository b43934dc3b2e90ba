import DecoderGen.Proofs.CodeLines
import DecoderGen.Proofs.LegalNames
import DecoderGen.SystemVerilog.Decoder

/-! # Reading a priority `casez` from text

A reader for the text of a decoder that knows nothing of the table it was generated from. It finds
the arms of a priority `casez` with their literals and assignments and insists that the default arm
clears the whole output and comes last. The arms then decode inputs: the first arm whose literal
agrees with an input decides, and without one every field is zero.

Each piece of generated text reads back as what it was written for.
-/

namespace DecoderGen.SystemVerilog

/-- An arm of a priority `casez` as it is read from text. -/
structure CaseArm where
  width : Nat
  literal : List Char
  /-- The fields the arm assigns, in order, with their values. -/
  assigned : List (String × Bool)
deriving DecidableEq, Repr

/-- Whether a character may stand in a literal. -/
def isLiteralDigit (symbol : Char) : Bool := symbol == '0' || symbol == '1' || symbol == '?'

/-- Read the line that opens an arm: a width, `'b`, the digits of the literal and `: begin`. -/
def readLabel? (line : List Char) : Option CaseArm := do
  let digits := line.takeWhile Char.isDigit
  let rest ← (line.dropWhile Char.isDigit).dropPrefix? "'b".toList
  if digits ≠ [] ∧ rest.dropWhile isLiteralDigit = ": begin".toList then
    some ⟨Nat.ofDigitChars 10 digits 0, rest.takeWhile isLiteralDigit, []⟩
  else none

/-- Read the assignment of one bit to a field of the output. -/
def readAssignment? (port : String) (line : List Char) : Option (String × Bool) := do
  let rest ← line.dropPrefix? (port.toList ++ ['.'])
  let name := String.ofList (rest.takeWhile isIdentifierPart)
  let value := (rest.dropWhile isIdentifierPart).dropWhile (· == ' ')
  if value = "= 1'b1;".toList then some (name, true)
  else if value = "= 1'b0;".toList then some (name, false)
  else none

/-- The line that opens the default arm. -/
def defaultLabel : List Char := "default: begin".toList

/-- Whether the lines behind the label of the default arm clear the output, close the arm, and open
no other arm. -/
def closesCase (port : String) : List (List Char) → Bool
  | clear :: close :: rest =>
    clear == (port ++ " = '0;").toList && close == "end".toList &&
      rest.all fun line => (readLabel? line).isNone && line != defaultLabel
  | _ => false

/-- Read the arms of a priority `casez` from its lines, the given arm being open. Lines between arms
are skipped; within an arm every line is an assignment or closes the arm. -/
def readArms? (port : String) : Option CaseArm → List (List Char) → Option (List CaseArm)
  | _, [] => none
  | none, line :: rest =>
    if line = defaultLabel then if closesCase port rest then some [] else none
    else readArms? port (readLabel? line) rest
  | some arm, line :: rest =>
    if line = "end".toList then (readArms? port none rest).map (arm :: ·)
    else
      match readAssignment? port line with
      | none => none
      | some assignment =>
        readArms? port (some { arm with assigned := arm.assigned ++ [assignment] }) rest

/-- Read the priority `casez` of a text that assigns to the given port. -/
def readCase? (port text : String) : Option (List CaseArm) := readArms? port none (codeLines text)

/-- Digit by digit agreement of a literal with an input; `?` agrees with either bit. -/
def literalAccepts : List Char → Input → Bool
  | [], [] => true
  | symbol :: literal, bit :: input =>
    (symbol == '?' || symbol == Input.digit bit) && literalAccepts literal input
  | _, _ => false

namespace CaseArm

/-- The value an arm leaves in a field: that of the last assignment, or zero. -/
def value (arm : CaseArm) (field : String) : Bool :=
  (arm.assigned.reverse.lookup field).getD false

/-- The output fields a priority `casez` gives for an input. -/
def decode (fields : List String) (arms : List CaseArm) (input : Input) : List Bool :=
  match arms.find? (literalAccepts ·.literal input) with
  | some arm => fields.map arm.value
  | none => fields.map fun _ => false

end CaseArm

/-- A line that can neither open an arm nor the default arm. -/
def Skipped (line : List Char) : Prop := readLabel? line = none ∧ line ≠ defaultLabel

/-- Only a line that starts with a digit opens an arm. -/
theorem readLabel?_eq_none_of_head? {line : List Char}
    (start : ∀ first ∈ line.head?, first.isDigit = false) : readLabel? line = none := by
  cases line with
  | nil => rfl
  | cons first rest =>
    have noDigit := start first rfl
    cases behind : ((first :: rest).dropWhile Char.isDigit).dropPrefix? "'b".toList with
    | none => rw [readLabel?, behind]; rfl
    | some tail =>
      rw [readLabel?, behind, List.takeWhile_cons_of_neg (by simp [noDigit])]
      rfl

theorem skipped_of_head? {line : List Char}
    (start : ∀ first ∈ line.head?, first.isDigit = false ∧ first ≠ 'd') : Skipped line := by
  constructor
  · exact readLabel?_eq_none_of_head? fun first here => (start first here).1
  · rintro rfl
    exact (start 'd' rfl).2 rfl

theorem readArms?_skipped_append (port : String) {lines : List (List Char)}
    (skipped : ∀ line ∈ lines, Skipped line) (rest : List (List Char)) :
    readArms? port none (lines ++ rest) = readArms? port none rest := by
  induction lines with
  | nil => rfl
  | cons line lines ih =>
    obtain ⟨noLabel, noDefault⟩ := skipped line (List.mem_cons_self ..)
    rw [List.cons_append, readArms?, if_neg noDefault, noLabel,
      ih fun other member => skipped other (List.mem_cons_of_mem _ member)]

/-- The text of an interpolated text is that text. -/
@[simp] theorem toString_text (text : String) : toString text = text := rfl

theorem isLiteralDigit_casezSymbol (bit : PatternBit) : isLiteralDigit bit.casezSymbol = true := by
  cases bit <;> rfl

theorem armLabel_toList (guard : Guard) :
    (armLabel guard).toList = Nat.toDigits 10 guard.pattern.width ++
      ("'b".toList ++ (guard.pattern.casez.toList ++ ": begin".toList)) := by
  simp [armLabel]

/-- The label of an arm reads back as the width and the literal of its guard. -/
theorem readLabel?_armLabel (guard : Guard) :
    readLabel? (armLabel guard).toList =
      some ⟨guard.pattern.width, guard.pattern.casez.toList, []⟩ := by
  have digits : ∀ symbol ∈ Nat.toDigits 10 guard.pattern.width, symbol.isDigit = true :=
    fun symbol member => Nat.isDigit_of_mem_toDigits (by decide) (by decide) member
  have literal : ∀ symbol ∈ guard.pattern.casez.toList, isLiteralDigit symbol = true := by
    intro symbol member
    rw [Pattern.casez, String.toList_ofList] at member
    obtain ⟨bit, _, rfl⟩ := List.mem_map.mp member
    exact isLiteralDigit_casezSymbol bit
  obtain ⟨width, behind⟩ := takeWhile_append_of_head? digits
    (show ("'b".toList ++ (guard.pattern.casez.toList ++ ": begin".toList)).head?.any
      Char.isDigit = false by simp)
  obtain ⟨symbols, close⟩ := takeWhile_append_of_head? literal
    (show (": begin".toList).head?.any isLiteralDigit = false by decide)
  rw [armLabel_toList, readLabel?, width, behind,
    List.dropPrefix?_append_of_beq _ (beq_self_eq_true "'b".toList)]
  simp only [Option.bind_eq_bind, Option.bind_some, symbols, close, Nat.ofDigitChars_ten_toDigits]
  exact if_pos ⟨Nat.toDigits_ne_nil, trivial⟩

theorem assignment_toList (style : Style) (width : Nat) (field : String) (value : Bool) :
    (assignment style width field value).toList =
      style.outputPort.toList ++ ['.'] ++ (field.toList ++
        (List.replicate (width - field.length + 1) ' ' ++
          (if value then "= 1'b1;".toList else "= 1'b0;".toList))) := by
  cases value <;> simp [assignment, padRight, List.replicate_succ']

/-- The assignment of a field reads back, whatever its name is padded to. -/
theorem readAssignment?_assignment (style : Style) (width : Nat) {field : String}
    (legal : isIdentifier field = true) (value : Bool) :
    readAssignment? style.outputPort (assignment style width field value).toList =
      some (field, value) := by
  have inside : ∀ symbol ∈ field.toList, isIdentifierPart symbol = true :=
    fun symbol member => isIdentifierPart_of_mem legal member
  have blanks : ∀ symbol ∈ List.replicate (width - field.length + 1) ' ', (symbol == ' ') = true :=
    fun symbol member => by simp [List.eq_of_mem_replicate member]
  have padded (rest : List Char) : (List.replicate (width - field.length + 1) ' ' ++ rest).head?.any
      isIdentifierPart = false := by
    rw [List.replicate_succ]
    rfl
  obtain ⟨name, behind⟩ := takeWhile_append_of_head? inside
    (padded (if value then "= 1'b1;".toList else "= 1'b0;".toList))
  have written := (takeWhile_append_of_head? blanks
    (show (if value then "= 1'b1;".toList else "= 1'b0;".toList).head?.any (· == ' ') = false by
      cases value <;> rfl)).2
  rw [assignment_toList, readAssignment?,
    List.dropPrefix?_append_of_beq _ (beq_self_eq_true (style.outputPort.toList ++ ['.']))]
  simp only [Option.bind_eq_bind, Option.bind_some, name, behind, written, String.ofList_toList]
  cases value <;> rfl

theorem assignment_ne_end (style : Style) (width : Nat) (field : String) (value : Bool) :
    (assignment style width field value).toList ≠ "end".toList := by
  intro same
  have point : '.' ∈ (assignment style width field value).toList := by
    rw [assignment_toList]
    exact List.mem_append_left _ (List.mem_append_right _ (List.mem_singleton.mpr rfl))
  rw [same] at point
  exact absurd point (by decide)

/-- Reading the assignments of an open arm collects them in order. -/
theorem readArms?_assignments (style : Style) (width : Nat) (arm : CaseArm)
    {pairs : List (String × Bool)} (legal : ∀ pair ∈ pairs, isIdentifier pair.1 = true)
    (rest : List (List Char)) :
    readArms? style.outputPort (some arm)
        (pairs.map (fun pair => (assignment style width pair.1 pair.2).toList) ++
          "end".toList :: rest) =
      (readArms? style.outputPort none rest).map
        ({ arm with assigned := arm.assigned ++ pairs } :: ·) := by
  induction pairs generalizing arm with
  | nil =>
    rw [List.map_nil, List.nil_append, readArms?, if_pos rfl, List.append_nil]
  | cons pair pairs ih =>
    have here := readAssignment?_assignment style width (legal pair (List.mem_cons_self ..)) pair.2
    rw [List.map_cons, List.cons_append, readArms?,
      if_neg (assignment_ne_end style width pair.1 pair.2)]
    simp only [here]
    rw [ih _ fun other member => legal other (List.mem_cons_of_mem _ member)]
    simp

/-- A literal agrees with the inputs that the pattern it was written for accepts. -/
theorem literalAccepts_casezSymbol (bits : List PatternBit) (input : Input) :
    literalAccepts (bits.map PatternBit.casezSymbol) input = Pattern.acceptsBits bits input := by
  induction bits generalizing input with
  | nil => cases input <;> rfl
  | cons required rest ih =>
    cases input with
    | nil => rfl
    | cons bit input =>
      rw [List.map_cons, literalAccepts, Pattern.acceptsBits, ih]
      congr 1
      cases required <;> cases bit <;> rfl

/-- With distinct fields, the value an arm leaves in a field is the one it assigns to it. -/
theorem CaseArm.value_of_mem {arm : CaseArm} (distinct : (arm.assigned.map Prod.fst).Nodup)
    {field : String} {value : Bool} (member : (field, value) ∈ arm.assigned) :
    arm.value field = value := by
  obtain ⟨before, after, split⟩ := List.append_of_mem member
  have found : arm.assigned.reverse.lookup field = some value := by
    refine List.lookup_eq_some_iff.mpr ⟨after.reverse, before.reverse, by simp [split], ?_⟩
    intro other later
    rw [split, List.map_append, List.map_cons] at distinct
    have apart := (List.nodup_cons.mp (List.nodup_append.mp distinct).2.1).1
    have listed := List.mem_map_of_mem (f := Prod.fst) (List.mem_reverse.mp later)
    refine bne_iff_ne.mpr fun same => apart ?_
    rwa [← same] at listed
  rw [CaseArm.value, found]
  rfl

end DecoderGen.SystemVerilog
