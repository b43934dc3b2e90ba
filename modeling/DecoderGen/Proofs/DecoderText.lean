import DecoderGen.Proofs.CaseText
import DecoderGen.Proofs.CompileStages

/-! # The meaning of the generated decoder

The text of the decoder module means what the logic it was generated from means. Its lines fall into
a preface, the arms and the closing lines. Whatever the rules are called, only the arms are read as
arms, each as the guard it was written for; and the arms decode every input as the logic evaluates
it.
-/

namespace DecoderGen.SystemVerilog

/-- Whether a text stays on one line. -/
def Unbroken (text : String) : Prop := '\n' ∉ text.toList

instance (text : String) : Decidable (Unbroken text) := inferInstanceAs (Decidable (¬ _))

theorem Unbroken.append {left right : String} (first : Unbroken left) (second : Unbroken right) :
    Unbroken (left ++ right) := by
  rw [Unbroken, String.toList_append, List.mem_append]
  exact not_or.mpr ⟨first, second⟩

/-- A text that stays on one line and holds no point, as it stands between a port and a field. -/
def Solid (text : String) : Prop := Unbroken text ∧ '.' ∉ text.toList

instance (text : String) : Decidable (Solid text) := inferInstanceAs (Decidable (_ ∧ ¬ _))

theorem Solid.append {left right : String} (first : Solid left) (second : Solid right) :
    Solid (left ++ right) := by
  refine ⟨first.1.append second.1, ?_⟩
  rw [String.toList_append, List.mem_append]
  exact not_or.mpr ⟨first.2, second.2⟩

theorem solid_of_isIdentifier {name : String} (legal : isIdentifier name = true) : Solid name :=
  ⟨not_mem_of_isIdentifier legal (by decide), not_mem_of_isIdentifier legal (by decide)⟩

theorem solid_package {style : Style} {table : Table} (suits : style.Suits table) :
    Solid (style.packageName table.output.typeName) := by
  constructor
  · intro broken
    exact absurd (suits.isIdentifierPart_of_mem_package broken) (by decide)
  · intro point
    exact absurd (suits.isIdentifierPart_of_mem_package point) (by decide)

/-- Line breaks are control characters, which comments never keep. -/
theorem unbroken_commentText (text : String) : Unbroken (commentText text) := by
  rw [Unbroken, commentText, String.toList_ofList, List.mem_map]
  rintro ⟨symbol, _, same⟩
  split at same
  · cases same
  · next visible => exact visible (same ▸ by decide)

theorem solid_toString (number : Nat) : Solid (toString number) := by
  rw [Solid, Unbroken, Nat.toString_eq_repr, Nat.toList_repr]
  constructor
  · intro broken
    exact absurd (Nat.isDigit_of_mem_toDigits (by decide) (by decide) broken) (by decide)
  · intro point
    exact absurd (Nat.isDigit_of_mem_toDigits (by decide) (by decide) point) (by decide)

/-- Open bits are written `?` in a literal, not as points. -/
theorem solid_casez (pattern : Pattern) : Solid pattern.casez := by
  rw [Solid, Unbroken, Pattern.casez, String.toList_ofList, List.mem_map, List.mem_map]
  constructor
  · rintro ⟨bit, _, same⟩
    cases bit <;> cases same
  · rintro ⟨bit, _, same⟩
    cases bit <;> cases same

theorem unbroken_padRight (width : Nat) {name : String} (legal : isIdentifier name = true) :
    Unbroken (padRight width name) := by
  refine (solid_of_isIdentifier legal).1.append ?_
  rw [Unbroken, String.toList_ofList]
  exact fun broken => absurd (List.eq_of_mem_replicate broken) (by decide)

/-- What is asked of a line outside the arms: it stays one line, and as code it neither opens an arm
nor assigns to a field. -/
structure Line.Inert (line : Line) : Prop where
  unbroken : Unbroken line.text
  skipped : isComment line.code = true ∨ Skipped line.code ∧ '.' ∉ line.code

theorem Line.inert_of_comment {line : Line} {rest : List Char} (unbroken : Unbroken line.text)
    (starts : line.text.toList = '/' :: '/' :: rest) : line.Inert := by
  refine ⟨unbroken, .inl ?_⟩
  rw [Line.code, starts]
  exact isComment_trimmed rest

/-- Whether a line that starts with the character is code that opens no arm. -/
def opensNothing (symbol : Char) : Bool :=
  !symbol.isWhitespace && !symbol.isDigit && symbol != 'd'

/-- Code on one line that is told from a label by its first character. -/
def PlainCode (text : String) : Prop := Solid text ∧ text.toList.head?.any opensNothing = true

instance (text : String) : Decidable (PlainCode text) := inferInstanceAs (Decidable (_ ∧ _))

theorem PlainCode.append {left right : String} (plain : PlainCode left) (solid : Solid right) :
    PlainCode (left ++ right) := by
  refine ⟨plain.1.append solid, ?_⟩
  obtain ⟨first, here, opens⟩ := (Option.any_eq_true ..).mp plain.2
  rw [String.toList_append, List.head?_append, here, Option.some_or]
  exact opens

theorem Line.inert_of_plainCode {line : Line} (plain : PlainCode line.text) : line.Inert := by
  refine ⟨plain.1.1, .inr ⟨skipped_of_head? ?_, fun point => ?_⟩⟩
  case refine_2 => exact plain.1.2 ((trimmed_sublist _).subset point)
  obtain ⟨first, here, opens⟩ := (Option.any_eq_true ..).mp plain.2
  simp only [opensNothing, Bool.and_eq_true, Bool.not_eq_true', bne_iff_ne] at opens
  rw [Line.code, head?_trimmed here opens.1.1]
  rintro symbol ⟨⟩
  exact ⟨opens.1.2, opens.2⟩

theorem Line.inert_blank : Line.blank.Inert := by
  refine ⟨by decide, .inr ⟨skipped_of_head? ?_, by decide⟩⟩
  rintro symbol ⟨⟩

theorem skipped_of_inert {lines : List Line} (inert : ∀ line ∈ lines, line.Inert) :
    ∀ line ∈ (lines.map Line.code).filter (!isComment ·), Skipped line := by
  intro line member
  obtain ⟨listed, code⟩ := List.mem_filter.mp member
  obtain ⟨source, there, rfl⟩ := List.mem_map.mp listed
  rcases (inert source there).skipped with comment | ⟨skipped, _⟩
  · simp [comment] at code
  · exact skipped

theorem unbroken_backendName (backend : Backend) : Unbroken backend.name := by
  cases backend <;> decide

section Decoder

variable {table : Table} {style : Style}

theorem header_inert (table : Table) (style : Style) :
    ∀ line ∈ header table style, line.Inert := by
  intro line member
  rw [header] at member
  split at member
  · obtain rfl := List.mem_singleton.mp member
    refine Line.inert_of_comment ?_ (by simp; rfl)
    have name := unbroken_commentText table.moduleName
    exact ((show Unbroken "// Generated by dectab from decode table `" by decide).append name).append
      (by decide)
  · cases member

/-- The lines of the decoder: a preface and closing lines that open no arm, and the arms between
them. The closing lines start with the default arm, which clears the output. Of the logic, only its
backend and the number of its guards show outside of the arms. -/
theorem decoderLines_parts (suits : style.Suits table) (backend : Backend) (number : Nat) :
    ∃ preface closing, (∀ logic : Logic, logic.backend = backend → logic.guards.length = number →
        decoderLines table logic style = preface ++ logic.guards.flatMap (armLines table style) ++
          (⟨3, "default: begin"⟩ :: ⟨4, style.outputPort ++ " = '0;"⟩ :: ⟨3, "end"⟩ :: closing)) ∧
      (∀ line ∈ preface, line.Inert) ∧ ∀ line ∈ closing, line.Inert := by
  have input := solid_of_isIdentifier suits.inputPort
  have output := solid_of_isIdentifier suits.outputPort
  have moduleName := solid_of_isIdentifier table.wellFormed.moduleName
  have typeName := solid_of_isIdentifier table.wellFormed.typeName
  refine ⟨_, _, fun logic sameBackend sameNumber => by rw [decoderLines, sameBackend, sameNumber]; rfl,
    ?_, ?_⟩
  · have caption : ∀ line ∈ (if style.header then
        [⟨0, s!"// Backend: {backend.name}, {number} rule(s)."⟩, Line.blank]
        else [] : List Line), line.Inert := by
      intro line member
      split at member
      · rcases List.mem_pair.mp member with rfl | rfl
        · have text := (show Unbroken "// Backend: " by decide).append
            (unbroken_backendName backend)
          exact Line.inert_of_comment (((text.append (by decide)).append (solid_toString _).1).append
            (by decide)) (by simp; rfl)
        · exact Line.inert_blank
      · cases member
    simp only [List.forall_mem_append, List.forall_mem_cons]
    refine ⟨⟨header_inert table style, caption⟩, ?_, ?_, ?_, ?_, ?_, ?_, ?_, ?_, ?_, by simp⟩
    · exact Line.inert_of_plainCode ((show PlainCode "module " by decide).append moduleName)
    · have package := (show PlainCode "import " by decide).append (solid_package suits)
      exact Line.inert_of_plainCode (package.append (by decide))
    · exact Line.inert_of_plainCode (show PlainCode "(" by decide)
    · have range := (show PlainCode "input  logic [" by decide).append
        (solid_toString (table.inputWidth - 1))
      have port := (range.append (show Solid ":0] " by decide)).append input
      exact Line.inert_of_plainCode (port.append (by decide))
    · have port := (show PlainCode "output " by decide).append typeName
      exact Line.inert_of_plainCode ((port.append (show Solid " " by decide)).append output)
    · exact Line.inert_of_plainCode (show PlainCode ");" by decide)
    · exact Line.inert_blank
    · exact Line.inert_of_plainCode (show PlainCode "always_comb begin" by decide)
    · have subject := (show PlainCode "casez (" by decide).append input
      exact Line.inert_of_plainCode (subject.append (by decide))
  · simp only [List.forall_mem_cons]
    refine ⟨?_, ?_, Line.inert_blank, ?_, by simp⟩
    · exact Line.inert_of_plainCode (show PlainCode "endcase" by decide)
    · exact Line.inert_of_plainCode (show PlainCode "end" by decide)
    · exact Line.inert_of_plainCode ((show PlainCode "endmodule : " by decide).append moduleName)

/-- The arm that is read where the arm of a guard was written. -/
def CaseArm.ofGuard (fields : List String) (guard : Guard) : CaseArm where
  width := guard.pattern.width
  literal := guard.pattern.casez.toList
  assigned := fields.mapIdx fun position field => (field, guard.asserts position)

/-- The label of an arm starts with a digit and is read as it stands. -/
theorem code_armLabel (depth : Nat) (guard : Guard) :
    (⟨depth, armLabel guard⟩ : Line).code = (armLabel guard).toList ∧
      isComment (armLabel guard).toList = false := by
  obtain ⟨first, rest, digits⟩ := List.exists_cons_of_ne_nil
    (Nat.toDigits_ne_nil (n := guard.pattern.width) (b := 10))
  have digit : first.isDigit = true :=
    Nat.isDigit_of_mem_toDigits (by decide) (by decide) (digits ▸ List.mem_cons_self ..)
  have starts : (armLabel guard).toList.head? = some first := by
    rw [armLabel_toList, digits]
    rfl
  have ends : (armLabel guard).toList.getLast? = some 'n' := by
    rw [armLabel_toList, List.getLast?_append, List.getLast?_append, List.getLast?_append]
    rfl
  have part : isIdentifierPart first = true := by simp [isIdentifierPart, Char.isAlphanum, digit]
  refine ⟨trimmed_eq_self starts ends (not_isWhitespace_of_part part) (by decide), ?_⟩
  apply isComment_eq_false starts
  rintro rfl
  cases digit

/-- A line that starts with an identifier and ends in a semicolon is read as it stands. -/
theorem code_statement {name rest : String} (legal : isIdentifier name = true)
    (ends : rest.toList.getLast? = some ';') (depth : Nat) :
    (⟨depth, name ++ rest⟩ : Line).code = (name ++ rest).toList ∧
      isComment (name ++ rest).toList = false := by
  obtain ⟨first, tail, characters, start, _⟩ := toList_of_isIdentifier legal
  have part := isIdentifierPart_of_start start
  have starts : (name ++ rest).toList.head? = some first := by
    rw [String.toList_append, characters]
    rfl
  have last : (name ++ rest).toList.getLast? = some ';' := by
    rw [String.toList_append, List.getLast?_append, ends]
    rfl
  refine ⟨trimmed_eq_self starts last (not_isWhitespace_of_part part) (by decide), ?_⟩
  apply isComment_eq_false starts
  rintro rfl
  cases part

theorem code_assignment (suits : style.Suits table) (depth width : Nat) (field : String)
    (value : Bool) :
    (⟨depth, assignment style width field value⟩ : Line).code =
        (assignment style width field value).toList ∧
      isComment (assignment style width field value).toList = false := by
  have spelled : assignment style width field value = style.outputPort ++
      ("." ++ (padRight width field ++ (" = " ++ if value then "1'b1;" else "1'b0;"))) := by
    simp [assignment, String.append_assoc]
  rw [spelled]
  apply code_statement suits.outputPort
  simp only [String.toList_append, List.getLast?_append]
  cases value <;> rfl

/-- The code of an arm: the comment with the name of the rule is gone, the rest stands. -/
theorem armLines_code (suits : style.Suits table) (guard : Guard) :
    ((armLines table style guard).map Line.code).filter (!isComment ·) =
      (armLabel guard).toList ::
        ((CaseArm.ofGuard table.output.fields guard).assigned.map (fun pair =>
          (assignment style (longest table.output.fields) pair.1 pair.2).toList) ++
            ["end".toList]) := by
  have name : isComment (⟨3, comment guard.name⟩ : Line).code = true := by
    rw [Line.code, comment, String.toList_append]
    exact isComment_trimmed _
  have label := code_armLabel 3 guard
  have body := fun (field : String) (value : Bool) =>
    code_assignment suits 4 (longest table.output.fields) field value
  have fields : ((table.output.fields.mapIdx (fun position field => (⟨4, assignment style
        (longest table.output.fields) field (guard.asserts position)⟩ : Line))).map Line.code) =
      (CaseArm.ofGuard table.output.fields guard).assigned.map (fun pair =>
        (assignment style (longest table.output.fields) pair.1 pair.2).toList) := by
    simp only [CaseArm.ofGuard, List.mapIdx_eq_zipIdx_map, List.map_map, Function.comp_def, body]
  have kept : ∀ line ∈ (CaseArm.ofGuard table.output.fields guard).assigned.map (fun pair =>
      (assignment style (longest table.output.fields) pair.1 pair.2).toList),
      (!isComment line) = true := by
    intro line member
    obtain ⟨pair, _, rfl⟩ := List.mem_map.mp member
    simp [(body pair.1 pair.2).2]
  rw [armLines, List.map_append, List.map_append, fields, List.filter_append, List.filter_append,
    List.filter_eq_self.mpr kept]
  simp only [List.map_cons, List.map_nil, label.1, List.filter_cons, name, label.2]
  rfl

theorem solid_armLabel (guard : Guard) : Solid (armLabel guard) :=
  (((solid_toString _).append (show Solid "'b" by decide)).append
    (solid_casez guard.pattern)).append (show Solid ": begin" by decide)

theorem unbroken_armLines (suits : style.Suits table) (guard : Guard) :
    ∀ line ∈ armLines table style guard, Unbroken line.text := by
  have label : Unbroken (armLabel guard) :=
    (solid_armLabel guard).1
  have port : Unbroken (style.outputPort ++ ".") :=
    (solid_of_isIdentifier suits.outputPort).1.append (by decide)
  simp only [armLines, List.forall_mem_append, List.forall_mem_cons]
  refine ⟨⟨⟨?_, label, by simp⟩, ?_⟩, show Unbroken "end" by decide, by simp⟩
  · exact (show Unbroken "// " by decide).append (unbroken_commentText guard.name)
  · intro line member
    obtain ⟨position, bound, rfl⟩ := List.mem_mapIdx.mp member
    have legal := table.wellFormed.fields _ (List.getElem_mem bound)
    have field := (port.append (unbroken_padRight (longest table.output.fields) legal)).append
      (show Unbroken " = " by decide)
    exact field.append (by split <;> decide)

theorem decoderLines_unbroken (suits : style.Suits table) (logic : Logic) :
    ∀ line ∈ decoderLines table logic style, '\n' ∉ line.text.toList := by
  obtain ⟨preface, closing, parts, front, back⟩ :=
    decoderLines_parts suits logic.backend logic.guards.length
  have clear : Unbroken (style.outputPort ++ " = '0;") :=
    (solid_of_isIdentifier suits.outputPort).1.append (by decide)
  rw [parts logic rfl rfl]
  simp only [List.forall_mem_append, List.forall_mem_cons, List.forall_mem_flatMap]
  exact ⟨⟨fun line member => (front line member).unbroken, fun guard _ => unbroken_armLines suits guard⟩,
    show Unbroken "default: begin" by decide, clear, show Unbroken "end" by decide,
    fun line member => (back line member).unbroken⟩

/-- Reading the arms of guards gives them back in order, whatever follows. -/
theorem readArms?_armLines (suits : style.Suits table) (guards : List Guard)
    (rest : List (List Char)) :
    readArms? style.outputPort none
        (((guards.flatMap (armLines table style)).map Line.code).filter (!isComment ·) ++ rest) =
      (readArms? style.outputPort none rest).map
        (guards.map (CaseArm.ofGuard table.output.fields) ++ ·) := by
  induction guards with
  | nil => simp
  | cons guard guards ih =>
    have legal : ∀ pair ∈ (CaseArm.ofGuard table.output.fields guard).assigned,
        isIdentifier pair.1 = true := by
      intro pair member
      obtain ⟨position, bound, rfl⟩ := List.mem_mapIdx.mp member
      exact table.wellFormed.fields _ (List.getElem_mem bound)
    have notDefault : (armLabel guard).toList ≠ defaultLabel := by
      intro same
      have label := readLabel?_armLabel guard
      rw [same] at label
      cases label
    rw [List.flatMap_cons, List.map_append, List.filter_append, armLines_code suits guard,
      List.append_assoc, List.cons_append, readArms?, if_neg notDefault, readLabel?_armLabel,
      List.append_assoc, List.singleton_append,
      readArms?_assignments style _ _ legal, ih, Option.map_map]
    rfl

theorem readArms?_closing (suits : style.Suits table) {closing : List Line}
    (inert : ∀ line ∈ closing, line.Inert) :
    readArms? style.outputPort none
      (((⟨3, "default: begin"⟩ :: ⟨4, style.outputPort ++ " = '0;"⟩ :: ⟨3, "end"⟩ :: closing).map
        Line.code).filter (!isComment ·) ++ [[]]) = some [] := by
  obtain ⟨clear, visible⟩ := @code_statement _ " = '0;" suits.outputPort rfl 4
  have rest : ((closing.map Line.code).filter (!isComment ·) ++ [[]]).all
      (fun line => (readLabel? line).isNone && line != defaultLabel) = true := by
    rw [List.all_append, Bool.and_eq_true]
    refine ⟨List.all_eq_true.mpr fun line member => ?_, rfl⟩
    obtain ⟨noLabel, noDefault⟩ := skipped_of_inert inert line member
    simp [noLabel, noDefault]
  have opening : (⟨3, "default: begin"⟩ : Line).code = defaultLabel := by decide
  have close : (⟨3, "end"⟩ : Line).code = "end".toList := by decide
  rw [List.map_cons, List.map_cons, List.map_cons, opening, close, clear,
    List.filter_cons_of_pos (by decide), List.filter_cons_of_pos (by rw [visible]; rfl),
    List.filter_cons_of_pos (by decide), List.cons_append, List.cons_append, List.cons_append,
    readArms?, if_pos rfl, closesCase, rest]
  simp

/-- The text of the decoder reads back as one arm per guard, in order. -/
theorem readCase?_decoderLines (suits : style.Suits table) (logic : Logic) (count : Nat) :
    readCase? style.outputPort
        (Line.render (String.ofList (List.replicate count ' ')) (decoderLines table logic style)) =
      some (logic.guards.map (CaseArm.ofGuard table.output.fields)) := by
  obtain ⟨preface, closing, parts, front, back⟩ :=
    decoderLines_parts suits logic.backend logic.guards.length
  rw [readCase?, codeLines_render count _ (decoderLines_unbroken suits logic), parts logic rfl rfl]
  rw [List.map_append, List.map_append, List.filter_append, List.filter_append, List.append_assoc,
    List.append_assoc, readArms?_skipped_append _ (skipped_of_inert front), readArms?_armLines suits,
    readArms?_closing suits back]
  simp

end Decoder

namespace CaseArm

/-- What an arm records of a guard: the width of the input, the pattern with open bits written `?`,
and every output field in order, set exactly where the guard asserts it. -/
structure Records (arm : CaseArm) (inputWidth : Nat) (fields : List String) (guard : Guard) :
    Prop where
  width : arm.width = inputWidth
  literal : arm.literal =
    guard.pattern.text.toList.map fun symbol => if symbol = '.' then '?' else symbol
  assigned : arm.assigned.map Prod.fst = fields
  asserted : ∀ (position : Nat) (name : String), fields[position]? = some name →
    ((name, true) ∈ arm.assigned ↔ position ∈ guard.asserted)

theorem map_fst_ofGuard (fields : List String) (guard : Guard) :
    (ofGuard fields guard).assigned.map Prod.fst = fields := by
  apply List.ext_getElem?
  intro position
  simp [ofGuard, Function.comp_def]

theorem value_ofGuard {fields : List String} (distinct : fields.Nodup) (guard : Guard)
    {position : Nat} {name : String} (declared : fields[position]? = some name) :
    (ofGuard fields guard).value name = guard.asserts position := by
  apply value_of_mem
  · rw [map_fst_ofGuard]
    exact distinct
  · obtain ⟨bound, rfl⟩ := List.getElem?_eq_some_iff.mp declared
    exact List.mem_mapIdx.mpr ⟨position, bound, rfl⟩

theorem records_ofGuard {logic : Logic} {guard : Guard} (formed : guard.WellFormed logic)
    {fields : List String} (distinct : fields.Nodup) :
    (ofGuard fields guard).Records logic.inputWidth fields guard := by
  refine ⟨formed.width, ?_, map_fst_ofGuard fields guard, fun position name declared => ?_⟩
  · rw [Pattern.text_toList, List.map_map]
    change guard.pattern.casez.toList = _
    rw [Pattern.casez, String.toList_ofList]
    refine List.map_congr_left fun bit _ => ?_
    cases bit <;> rfl
  · rw [← Guard.asserts_iff_mem formed.ascending position]
    have assigned := value_ofGuard distinct guard declared
    obtain ⟨bound, rfl⟩ := List.getElem?_eq_some_iff.mp declared
    constructor
    · intro member
      rw [← assigned]
      exact value_of_mem ((map_fst_ofGuard fields guard).symm ▸ distinct) member
    · intro asserts
      exact List.mem_mapIdx.mpr ⟨position, bound, by rw [asserts]⟩

/-- The arms of guards decode every input as the guards do. -/
theorem decode_map_ofGuard {logic : Logic} (formed : ∀ guard ∈ logic.guards, guard.WellFormed logic)
    {fields : List String} (distinct : fields.Nodup) (size : fields.length = logic.fieldCount)
    (input : Input) :
    decode fields (logic.guards.map (ofGuard fields)) input = logic.evaluate input := by
  have search : (logic.guards.map (ofGuard fields)).find? (literalAccepts ·.literal input) =
      (logic.firstMatch? input).map (ofGuard fields) := by
    rw [List.find?_map, Logic.firstMatch?]
    congr 2
    funext guard
    change literalAccepts guard.pattern.casez.toList input = _
    rw [Pattern.casez, String.toList_ofList, literalAccepts_casezSymbol]
    rfl
  rw [decode, search]
  cases matched : logic.firstMatch? input with
  | none =>
    rw [Logic.evaluate, matched, ← size]
    exact List.map_const' ..
  | some guard =>
    have sound := formed guard (List.mem_of_find?_eq_some matched)
    change fields.map (ofGuard fields guard).value = _
    apply eq_of_getElem?_eq_true_iff
    · simp [size]
    · intro position bound
      rw [List.length_map] at bound
      have declared := List.getElem?_eq_getElem bound
      rw [Logic.evaluate_getElem?_eq_true_iff logic input (size ▸ bound), List.getElem?_map, declared,
        Option.map_some, value_ofGuard distinct guard declared, Option.some.injEq,
        Guard.asserts_iff_mem sound.ascending, matched]
      simp

end CaseArm
end DecoderGen.SystemVerilog

namespace DecoderGen

open SystemVerilog

/-- The emitted decoder means what the compiled logic means. Read as a priority `casez`, the text of
every compiled decoder has exactly one arm per guard, in order, and on every input its first
matching arm gives the outputs of the logic. -/
theorem Table.decoder_text_reads_back (table : Table) (config : Config) (count : Nat)
    (compilation : Compilation)
    (compiled : table.compile { config with style := config.style.withSpaces count } =
      .ok compilation) :
    ∃ arms, readCase? config.style.outputPort compilation.artifacts.decoder.contents = some arms ∧
      List.Forall₂ (fun arm guard => arm.Records table.inputWidth table.output.fields guard)
        arms compilation.logic.guards ∧
      ∀ input, CaseArm.decode table.output.fields arms input = compilation.logic.evaluate input := by
  obtain ⟨styled, resolved, rfl, _, _, rfl⟩ := (table.compile_eq_ok_iff _ _).mp compiled
  have suits := (Style.fault?_eq_none_iff _ _).mp styled
  have distinct := resolved.table.wellFormed.fields_nodup
  have formed := fun guard (member : guard ∈ resolved.nativeLogic.guards) =>
    resolved.guard_wellFormed member
  refine ⟨_, readCase?_decoderLines suits resolved.nativeLogic count, ?_, ?_⟩
  · refine List.forall₂_map_left_iff.mpr (List.forall₂_same.mpr fun guard member => ?_)
    exact CaseArm.records_ofGuard (formed guard member) distinct
  · exact CaseArm.decode_map_ofGuard formed distinct rfl

/-- A table whose rules are called like pieces of a `casez`, line breaks included. -/
def disguisedDraft : Draft where
  moduleName := "begin_0"
  width := 3
  output := ⟨"ctrl_t", ["a", "is_load"]⟩
  rules :=
    [⟨"x: begin\n3'b000: begin\nend", "1.0", ["is_load"], true⟩,
      ⟨"default: begin", "0..", ["a", "a"], true⟩]

/-- The disguised rules as a resolved table. -/
def disguised : Resolved :=
  ⟨⟨disguisedDraft, disguisedDraft.fault?_eq_none_iff.mp (by decide +kernel)⟩, by decide +kernel⟩

/-- The disguised table compiles, and its decoder still reads as one arm per rule. -/
theorem disguised_decoder_reads_back :
    disguised.table.compile { style := Style.withSpaces {} 3 } =
        .ok (disguised.compilation (Style.withSpaces {} 3)) ∧
      ∃ arms, readCase? "decode_o" (disguised.compilation (Style.withSpaces {} 3)).artifacts.decoder.contents =
          some arms ∧
        List.Forall₂ (fun arm guard => arm.Records 3 ["a", "is_load"] guard) arms
          disguised.nativeLogic.guards ∧
        ∀ input, CaseArm.decode ["a", "is_load"] arms input = disguised.nativeLogic.evaluate input := by
  have compiled : disguised.table.compile { style := Style.withSpaces {} 3 } =
      .ok (disguised.compilation (Style.withSpaces {} 3)) :=
    (Table.compile_eq_ok_iff _ _ _).mpr ⟨by decide +kernel, disguised, rfl, nofun, rfl, rfl⟩
  exact ⟨compiled, Table.decoder_text_reads_back disguised.table {} 3 _ compiled⟩

end DecoderGen
