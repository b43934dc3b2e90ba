import DecoderGen.Proofs.DecoderText

/-! # Rule names stay in comments

A rule name may be any text, and it reaches generated text in one place only: the caption of an arm,
a comment of one line above the label of the arm, with `//` in front of the name. Two tables that
differ in the names of their rules have the same types package, and their decoders agree line by
line, the captions apart.
-/

namespace DecoderGen

/-- A row without its name. -/
def Rule.unnamed (rule : Rule) : Rule := { rule with name := "" }

/-- A guard without the name of its rule. -/
def Guard.unnamed (guard : Guard) : Guard := { guard with name := "" }

/-- Two tables that differ in the names of their rules at most. -/
structure Table.Renamed (left right : Table) : Prop extends Table.SameInterface left right where
  rules : left.rules.map Rule.unnamed = right.rules.map Rule.unnamed

/-- The names of the enabled rows in table order. -/
def Table.enabledNames (table : Table) : List String :=
  (table.rules.filter (·.enabled)).map (·.name)

namespace Resolved

theorem map_name_guards (resolved : Resolved) :
    resolved.guards.map (·.name) = resolved.table.enabledNames := by
  rw [guards, Table.enabledNames, ← map_rule_enabledRules, List.map_map, List.map_map]
  rfl

/-- What guards keep apart from names comes from what rows say apart from names. -/
theorem map_unnamed_guards (resolved : Resolved) :
    resolved.guards.map Guard.unnamed =
      (((resolved.table.rules.map Rule.unnamed).mapIdx (Rule.resolve resolved.table.output)).filter
        (·.rule.enabled)).map ResolvedRule.guard := by
  have rows : (resolved.table.rules.map Rule.unnamed).mapIdx (Rule.resolve resolved.table.output) =
      resolved.rules.map fun rule => { rule with rule := rule.rule.unnamed } := by
    apply List.ext_getElem?
    intro position
    simp [rules, Rule.resolve, Rule.unnamed, Function.comp_def]
  rw [rows, List.filter_map, List.map_map, guards, List.map_map]
  rfl

theorem guards_unnamed_of_renamed {left right : Resolved}
    (renamed : left.table.Renamed right.table) :
    List.Forall₂ (fun one other => Guard.unnamed one = other.unnamed) left.guards right.guards := by
  have same : left.guards.map Guard.unnamed = right.guards.map Guard.unnamed := by
    rw [map_unnamed_guards, map_unnamed_guards, renamed.rules, renamed.output]
  rwa [← List.forall₂_eq_eq_eq, List.forall₂_map_left_iff, List.forall₂_map_right_iff] at same

end Resolved

namespace SystemVerilog

/-- Whether a line opens an arm. -/
def opensArm (line : List Char) : Bool := (readLabel? (trimmed line)).isSome

/-- The control characters: the codes below the space, and those from delete up to `U+009F`. -/
def ControlCode (symbol : Char) : Prop :=
  symbol.toNat ≤ 0x1F ∨ (0x7F ≤ symbol.toNat ∧ symbol.toNat ≤ 0x9F)

instance (symbol : Char) : Decidable (ControlCode symbol) := inferInstanceAs (Decidable (_ ∨ _))

/-- A comment of one line with a name: what follows the spaces at its start is `//`, a space, and
the name with a space for each control character, and no character of the line is a control
character, line breaks included. -/
structure IsCaption (name : String) (line : List Char) : Prop where
  text : line.dropWhile (· == ' ') =
    '/' :: '/' :: ' ' :: name.toList.map fun symbol => if ControlCode symbol then ' ' else symbol
  visible : ∀ symbol ∈ line, ¬ ControlCode symbol

/-- Two texts agree line by line, except that each arm of either stands under a caption of its own.
The names on the captions are listed in order. -/
inductive AgreeBesideCaptions :
    List (String × String) → List (List Char) → List (List Char) → Prop
  | nil : AgreeBesideCaptions [] [] []
  | same {names : List (String × String)} {left right : List (List Char)} {line : List Char}
      (plain : opensArm line = false) (rest : AgreeBesideCaptions names left right) :
      AgreeBesideCaptions names (line :: left) (line :: right)
  | arm {names : List (String × String)} {left right : List (List Char)} {name other : String}
      {above otherAbove label : List Char} (caption : IsCaption name above)
      (otherCaption : IsCaption other otherAbove) (opens : opensArm label = true)
      (rest : AgreeBesideCaptions names left right) :
      AgreeBesideCaptions ((name, other) :: names) (above :: label :: left)
        (otherAbove :: label :: right)

namespace AgreeBesideCaptions

variable {names : List (String × String)} {left right : List (List Char)}

theorem length_eq (agree : AgreeBesideCaptions names left right) : left.length = right.length := by
  induction agree with
  | nil => rfl
  | same _ _ ih => simp only [List.length_cons, ih]
  | arm _ _ _ _ ih => simp only [List.length_cons, ih]

/-- Lines that open no arm may stand in front of both texts. -/
theorem plain_append {lines : List (List Char)} (plain : ∀ line ∈ lines, opensArm line = false)
    (agree : AgreeBesideCaptions names left right) :
    AgreeBesideCaptions names (lines ++ left) (lines ++ right) := by
  induction lines with
  | nil => exact agree
  | cons line rest ih =>
    refine .same (plain line (List.mem_cons_self ..)) (ih fun other member => ?_)
    exact plain other (List.mem_cons_of_mem _ member)

end AgreeBesideCaptions

theorem isControl_eq_true_iff (symbol : Char) : isControl symbol = true ↔ ControlCode symbol := by
  simp only [isControl, ControlCode, Bool.or_eq_true, Bool.and_eq_true, decide_eq_true_eq]
  omega

theorem comment_toList (name : String) :
    (comment name).toList =
      '/' :: '/' :: ' ' :: name.toList.map fun symbol =>
        if ControlCode symbol then ' ' else symbol := by
  rw [comment, commentText, String.toList_append]
  simp only [String.toList_ofList, isControl_eq_true_iff]
  rfl

/-- A control character in a comment has become a space, which is none. -/
theorem not_controlCode_of_mem_comment {name : String} {symbol : Char}
    (member : symbol ∈ (comment name).toList) : ¬ ControlCode symbol := by
  rw [comment_toList] at member
  simp only [List.mem_cons] at member
  rcases member with rfl | rfl | rfl | shown
  · decide
  · decide
  · decide
  · obtain ⟨source, _, rfl⟩ := List.mem_map.mp shown
    split
    · decide
    · assumption

theorem isCaption_shown (count depth : Nat) (name : String) :
    IsCaption name ((⟨depth, comment name⟩ : Line).shown count) := by
  constructor
  · rw [Line.shown, List.dropWhile_append_of_pos]
    · rw [comment_toList]
      rfl
    · intro symbol member
      simp [List.eq_of_mem_replicate member]
  · intro symbol member
    rcases List.mem_append.mp member with blank | inComment
    · rw [List.eq_of_mem_replicate blank]
      decide
    · exact not_controlCode_of_mem_comment inComment

section Lines
variable {table : Table} {style : Style}

theorem opensArm_shown (count : Nat) (line : Line) :
    opensArm (line.shown count) = (readLabel? line.code).isSome := by
  rw [opensArm, Line.trimmed_shown]

theorem opensArm_of_inert (count : Nat) {line : Line} (inert : line.Inert) :
    opensArm (line.shown count) = false := by
  rw [opensArm_shown]
  rcases inert.skipped with comment | ⟨skipped, _⟩
  · obtain ⟨rest, split⟩ := List.isPrefixOf_iff_prefix.mp comment
    rw [readLabel?_eq_none_of_head?]
    · rfl
    · rw [← split]
      rintro first ⟨⟩
      decide
  · rw [skipped.1]
    rfl

/-- A line that starts with a name opens no arm. -/
theorem readLabel?_trimmed_name_append {name : String} (legal : isIdentifier name = true)
    (rest : List Char) : readLabel? (trimmed (name.toList ++ rest)) = none := by
  obtain ⟨first, tail, characters, start, _⟩ := toList_of_isIdentifier legal
  have visible := not_isWhitespace_of_part (isIdentifierPart_of_start start)
  apply readLabel?_eq_none_of_head?
  rw [head?_trimmed (by rw [characters]; rfl) visible]
  rintro _ ⟨⟩
  rw [← Bool.not_eq_true]
  intro digit
  rw [isIdentifierStart_eq_false_of_isDigit digit] at start
  cases start

theorem opensArm_armLabel (count depth : Nat) (guard : Guard) :
    opensArm ((⟨depth, armLabel guard⟩ : Line).shown count) = true := by
  rw [opensArm_shown, (code_armLabel depth guard).1, readLabel?_armLabel]
  rfl

/-- The lines of an arm below its label. -/
def armBody (table : Table) (style : Style) (guard : Guard) : List Line :=
  table.output.fields.mapIdx (fun position field =>
    ⟨4, assignment style (longest table.output.fields) field (guard.asserts position)⟩) ++
  [⟨3, "end"⟩]

theorem armLines_eq (table : Table) (style : Style) (guard : Guard) :
    armLines table style guard =
      ⟨3, comment guard.name⟩ :: ⟨3, armLabel guard⟩ :: armBody table style guard := rfl

variable (suits : style.Suits table)
include suits

theorem opensArm_armBody (count : Nat) (guard : Guard) :
    ∀ line ∈ (armBody table style guard).map (Line.shown count), opensArm line = false := by
  rw [List.forall_mem_map, armBody, List.forall_mem_append]
  refine ⟨fun line member => ?_, ?_⟩
  · obtain ⟨position, bound, rfl⟩ := List.mem_mapIdx.mp member
    rw [opensArm_shown, Line.code, assignment_toList, List.append_assoc,
      readLabel?_trimmed_name_append suits.outputPort]
    rfl
  · simp only [List.forall_mem_singleton, opensArm_shown]
    decide

/-- Guards that differ in names give arms that differ in captions. -/
theorem agree_armLines (count : Nat) {left right : List Guard}
    (same : List.Forall₂ (fun one other => Guard.unnamed one = other.unnamed) left right)
    {names : List (String × String)} {leftRest rightRest : List (List Char)}
    (rest : AgreeBesideCaptions names leftRest rightRest) :
    AgreeBesideCaptions ((left.map (·.name)).zip (right.map (·.name)) ++ names)
      ((left.flatMap (armLines table style)).map (Line.shown count) ++ leftRest)
      ((right.flatMap (armLines table style)).map (Line.shown count) ++ rightRest) := by
  induction same with
  | nil => exact rest
  | @cons one other left right equal _ ih =>
    -- Neither the label nor the lines below it look at the name of a guard.
    have label : armLabel one = armLabel other :=
      show armLabel one.unnamed = armLabel other.unnamed by rw [equal]
    have body : armBody table style one = armBody table style other :=
      show armBody table style one.unnamed = armBody table style other.unnamed by rw [equal]
    simp only [List.flatMap_cons, List.map_append, List.map_cons, armLines_eq, label, body,
      List.cons_append, List.append_assoc, List.zip_cons_cons]
    exact .arm (isCaption_shown ..) (isCaption_shown ..) (opensArm_armLabel ..)
      (ih.plain_append (opensArm_armBody suits count other))

/-- The texts of two logics whose guards differ in names only. -/
theorem agree_decoderLines (count : Nat) {left right : Logic} (backend : left.backend = right.backend)
    (same : List.Forall₂ (fun one other => Guard.unnamed one = other.unnamed)
      left.guards right.guards) :
    AgreeBesideCaptions ((left.guards.map (·.name)).zip (right.guards.map (·.name)))
      (textLines (Line.render (String.ofList (List.replicate count ' '))
        (decoderLines table left style)))
      (textLines (Line.render (String.ofList (List.replicate count ' '))
        (decoderLines table right style))) := by
  obtain ⟨preface, closing, parts, front, back⟩ :=
    decoderLines_parts suits right.backend right.guards.length
  -- Below the arms nothing opens one, the default arm and the empty line at the end included.
  have ending : AgreeBesideCaptions []
      ((⟨3, "default: begin"⟩ :: ⟨4, style.outputPort ++ " = '0;"⟩ :: ⟨3, "end"⟩ :: closing).map
        (Line.shown count) ++ [[]])
      ((⟨3, "default: begin"⟩ :: ⟨4, style.outputPort ++ " = '0;"⟩ :: ⟨3, "end"⟩ :: closing).map
        (Line.shown count) ++ [[]]) := by
    refine AgreeBesideCaptions.plain_append ?_ (.same (by decide) .nil)
    simp only [List.map_cons, List.forall_mem_cons, List.forall_mem_map, opensArm_shown]
    refine ⟨by decide, ?_, by decide, fun line member => ?_⟩
    · rw [Line.code, String.toList_append, readLabel?_trimmed_name_append suits.outputPort]
      rfl
    · rw [← opensArm_shown count]
      exact opensArm_of_inert count (back line member)
  have opening : ∀ line ∈ preface.map (Line.shown count), opensArm line = false := by
    rw [List.forall_mem_map]
    exact fun line member => opensArm_of_inert count (front line member)
  have arms := agree_armLines suits count same ending
  rw [textLines_render count _ (decoderLines_unbroken suits left),
    textLines_render count _ (decoderLines_unbroken suits right),
    parts left backend same.length_eq, parts right rfl rfl]
  simp only [List.map_append, List.append_assoc] at arms ⊢
  rw [List.append_nil] at arms
  exact arms.plain_append opening

end Lines
end SystemVerilog

open SystemVerilog

/-- The logic shows in the text of the decoder only. -/
theorem Artifacts.generate_beside_logic (table : Table) (logic other : Logic) (style : Style) :
    (generate table logic style).types = (generate table other style).types ∧
      (generate table logic style).decoder.fileName =
        (generate table other style).decoder.fileName := by
  simp only [generate, and_self]

/-- Rule names cannot change what is generated. Tables that differ in the names of their rules
compile to the same types file and to decoders of as many lines each, which agree except for the
captions of the arms. -/
theorem Table.renamed_compile_agree (left right : Table) (renamed : left.Renamed right)
    (config : Config) (count : Nat) (leftCompilation rightCompilation : Compilation)
    (leftCompiled : left.compile { config with style := config.style.withSpaces count } =
      .ok leftCompilation)
    (rightCompiled : right.compile { config with style := config.style.withSpaces count } =
      .ok rightCompilation) :
    leftCompilation.artifacts.types = rightCompilation.artifacts.types ∧
    leftCompilation.artifacts.decoder.fileName = rightCompilation.artifacts.decoder.fileName ∧
    (textLines leftCompilation.artifacts.decoder.contents).length =
      (textLines rightCompilation.artifacts.decoder.contents).length ∧
    AgreeBesideCaptions (left.enabledNames.zip right.enabledNames)
      (textLines leftCompilation.artifacts.decoder.contents)
      (textLines rightCompilation.artifacts.decoder.contents) := by
  obtain ⟨_, resolved, rfl, _, _, rfl⟩ := (left.compile_eq_ok_iff _ _).mp leftCompiled
  obtain ⟨styled, other, rfl, _, _, rfl⟩ := (right.compile_eq_ok_iff _ _).mp rightCompiled
  have suits := (Style.fault?_eq_none_iff _ _).mp styled
  have backend : resolved.nativeLogic.backend = other.nativeLogic.backend := rfl
  have agree := agree_decoderLines suits count backend (Resolved.guards_unnamed_of_renamed renamed)
  have names : (resolved.nativeLogic.guards.map (·.name)).zip (other.nativeLogic.guards.map (·.name)) =
      resolved.table.enabledNames.zip other.table.enabledNames :=
    congrArg₂ List.zip resolved.map_name_guards other.map_name_guards
  rw [names] at agree
  have files := renamed.toSameInterface.generate_eq resolved.nativeLogic
    (config.style.withSpaces count)
  have beside := Artifacts.generate_beside_logic other.table resolved.nativeLogic other.nativeLogic
    (config.style.withSpaces count)
  rw [← files] at beside
  have text : (resolved.compilation (config.style.withSpaces count)).artifacts.decoder.contents =
      Line.render (String.ofList (List.replicate count ' '))
        (decoderLines other.table resolved.nativeLogic (config.style.withSpaces count)) :=
    congrArg (·.decoder.contents) files
  rw [text]
  exact ⟨beside.1, beside.2, agree.length_eq, agree⟩

/-- The disguised rules under plain names. -/
def undisguisedDraft : Draft :=
  { disguisedDraft with
    rules := [⟨"load", "1.0", ["is_load"], true⟩, ⟨"idle", "0..", ["a", "a"], true⟩] }

/-- The plainly named rules as a resolved table. -/
def undisguised : Resolved :=
  ⟨⟨undisguisedDraft, undisguisedDraft.fault?_eq_none_iff.mp (by decide +kernel)⟩, by decide +kernel⟩

/-- Names that look like code, line breaks included, change no line but the captions. -/
theorem disguised_undisguised_agree :
    disguised.table.Renamed undisguised.table ∧
    (disguised.compilation (Style.withSpaces {} 3)).artifacts.types =
      (undisguised.compilation (Style.withSpaces {} 3)).artifacts.types ∧
    AgreeBesideCaptions
      [("x: begin\n3'b000: begin\nend", "load"), ("default: begin", "idle")]
      (textLines (disguised.compilation (Style.withSpaces {} 3)).artifacts.decoder.contents)
      (textLines (undisguised.compilation (Style.withSpaces {} 3)).artifacts.decoder.contents) := by
  have renamed : disguised.table.Renamed undisguised.table := ⟨⟨rfl, rfl, rfl⟩, by decide +kernel⟩
  have compiled : ∀ resolved ∈ [disguised, undisguised],
      resolved.table.compile { style := Style.withSpaces {} 3 } =
        .ok (resolved.compilation (Style.withSpaces {} 3)) := by
    intro resolved member
    refine (Table.compile_eq_ok_iff _ _ _).mpr ⟨?_, resolved, rfl, nofun, rfl, rfl⟩
    simp only [List.mem_cons, List.not_mem_nil, or_false] at member
    rcases member with rfl | rfl <;> decide +kernel
  have agree := Table.renamed_compile_agree disguised.table undisguised.table renamed {} 3 _ _
    (compiled disguised (by simp)) (compiled undisguised (by simp))
  exact ⟨renamed, agree.1, agree.2.2.2⟩

end DecoderGen
