import DecoderGen.Proofs.LegalNames
import DecoderGen.Proofs.TableMeaning

/-! # When a draft is a table

What a draft has to satisfy is listed condition by condition, each with the fault that it stands
for: the module name, the width, the type name, the number of fields, then for every field that its
name is legal and new, and for every rule that it has a name and a pattern of the right width. Names
are judged without a search: their characters lie in given ranges, and no reserved word is equal to
them.

A draft is accepted exactly if all conditions hold, and refused with the fault of the first one that
does not. The scan is put together from smaller ones by `<|>`, and the list of conditions from
smaller lists by `++`; what a scan finds in a list is stable under both.
-/

namespace DecoderGen

/-- A letter or an underscore. -/
def IsNameStart (symbol : Char) : Prop :=
  ('A' ≤ symbol ∧ symbol ≤ 'Z') ∨ ('a' ≤ symbol ∧ symbol ≤ 'z') ∨ symbol = '_'

/-- A letter, an underscore or a digit. -/
def IsNamePart (symbol : Char) : Prop := IsNameStart symbol ∨ ('0' ≤ symbol ∧ symbol ≤ '9')

/-- A name that starts like one, goes on like one and is no reserved word. -/
structure LegalName (name : String) : Prop where
  form : ∃ first rest, name.toList = first :: rest ∧ IsNameStart first ∧
    ∀ symbol ∈ rest, IsNamePart symbol
  unreserved : name ∉ reservedWords

theorem isIdentifierStart_iff (symbol : Char) :
    isIdentifierStart symbol = true ↔ IsNameStart symbol := by
  have upper : symbol.isUpper = true ↔ 'A' ≤ symbol ∧ symbol ≤ 'Z' := decide_eq_true_iff
  have lower : symbol.isLower = true ↔ 'a' ≤ symbol ∧ symbol ≤ 'z' := by
    change (decide ('a' ≤ symbol) && decide (symbol ≤ 'z')) = true ↔ _
    rw [Bool.and_eq_true, decide_eq_true_iff, decide_eq_true_iff]
  change (symbol.isUpper || symbol.isLower || symbol == '_') = true ↔ _
  rw [Bool.or_eq_true, Bool.or_eq_true, upper, lower, beq_iff_eq, or_assoc, IsNameStart]

theorem isIdentifierPart_iff (symbol : Char) :
    isIdentifierPart symbol = true ↔ IsNamePart symbol := by
  have digit : symbol.isDigit = true ↔ '0' ≤ symbol ∧ symbol ≤ '9' := by
    simp [Char.isDigit, Char.le_def]
  rw [IsNamePart, ← isIdentifierStart_iff, ← digit]
  simp only [isIdentifierPart, isIdentifierStart, Char.isAlphanum, Bool.or_eq_true]
  tauto

/-- The check of identifiers accepts exactly the legal names. -/
theorem isIdentifier_iff_legalName (name : String) : isIdentifier name = true ↔ LegalName name := by
  rw [isIdentifier_eq_true_iff]
  constructor
  · rintro ⟨form, unreserved⟩
    obtain ⟨first, rest, characters, start, parts⟩ := eq_cons_of_hasIdentifierForm form
    refine ⟨⟨first, rest, characters, (isIdentifierStart_iff first).mp start, ?_⟩, unreserved⟩
    exact fun symbol member => (isIdentifierPart_iff symbol).mp (parts symbol member)
  · rintro ⟨⟨first, rest, characters, start, parts⟩, unreserved⟩
    refine ⟨?_, unreserved⟩
    rw [characters, hasIdentifierForm, Bool.and_eq_true, List.all_eq_true]
    refine ⟨(isIdentifierStart_iff first).mpr start, fun symbol member => ?_⟩
    exact (isIdentifierPart_iff symbol).mpr (parts symbol member)

/-! ## Conditions in order -/

/-- A condition with the fault of a draft that violates it. -/
structure Condition where
  holds : Prop
  fault : TableFault

/-- A fault is that of the first condition in a list that is violated. -/
def FirstFault (conditions : List Condition) (fault : TableFault) : Prop :=
  ∃ front condition back, conditions = front ++ condition :: back ∧
    (∀ earlier ∈ front, earlier.holds) ∧ ¬ condition.holds ∧ fault = condition.fault

/-- What a scan of conditions finds: nothing if all of them hold, otherwise the first fault. -/
structure Scans (conditions : List Condition) (found : Option TableFault) : Prop where
  none_iff : found = none ↔ ∀ condition ∈ conditions, condition.holds
  some_iff : ∀ fault, found = some fault ↔ FirstFault conditions fault

section Scans

variable {first second : List Condition} {found other : Option TableFault} {fault : TableFault}

theorem not_firstFault_nil : ¬ FirstFault [] fault := by
  rintro ⟨front, condition, back, split, _⟩
  exact List.append_ne_nil_of_right_ne_nil front (List.cons_ne_nil condition back) split.symm

theorem firstFault_cons_iff (condition : Condition) (rest : List Condition) :
    FirstFault (condition :: rest) fault ↔
      ¬ condition.holds ∧ fault = condition.fault ∨ condition.holds ∧ FirstFault rest fault := by
  constructor
  · rintro ⟨front, violated, back, split, before, fails, same⟩
    cases front with
    | nil =>
      obtain ⟨rfl, rfl⟩ := List.cons.inj split
      exact .inl ⟨fails, same⟩
    | cons head front =>
      obtain ⟨rfl, rfl⟩ := List.cons.inj split
      obtain ⟨here, later⟩ := List.forall_mem_cons.mp before
      exact .inr ⟨here, front, violated, back, rfl, later, fails, same⟩
  · rintro (⟨fails, same⟩ | ⟨here, front, violated, back, rfl, later, fails, same⟩)
    · exact ⟨[], condition, rest, rfl, by simp, fails, same⟩
    · exact ⟨condition :: front, violated, back, rfl, List.forall_mem_cons.mpr ⟨here, later⟩, fails,
        same⟩

/-- The first fault of two lists is in the first one, unless all conditions of that one hold. -/
theorem firstFault_append_iff :
    FirstFault (first ++ second) fault ↔
      FirstFault first fault ∨
        (∀ condition ∈ first, condition.holds) ∧ FirstFault second fault := by
  induction first with
  | nil => simp [not_firstFault_nil]
  | cons condition rest ih =>
    rw [List.cons_append, firstFault_cons_iff, firstFault_cons_iff, ih, List.forall_mem_cons]
    tauto

theorem Scans.nil : Scans [] none :=
  ⟨by simp, fun fault => by simp [not_firstFault_nil]⟩

theorem Scans.append (left : Scans first found) (right : Scans second other) :
    Scans (first ++ second) (found <|> other) := by
  rw [Option.orElse_eq_orElse, Option.orElse_eq_or]
  constructor
  · rw [Option.or_eq_none_iff, left.none_iff, right.none_iff, List.forall_mem_append]
  · intro fault
    rw [Option.or_eq_some_iff, left.some_iff, left.none_iff, right.some_iff, firstFault_append_iff]

/-- Asking one question scans one condition. -/
theorem scans_ite {fails holds : Prop} [Decidable fails] (opposite : ¬ fails ↔ holds) :
    Scans [⟨holds, fault⟩] (if fails then some fault else none) := by
  constructor
  · simp [opposite]
  · intro other
    rw [firstFault_cons_iff, ← opposite]
    simp [not_firstFault_nil, eq_comm]

/-- Searching a list for faults scans the conditions of its entries one after the other. -/
theorem scans_findSome? {α : Type} {conditions : α → List Condition}
    {check : α → Option TableFault} (each : ∀ entry, Scans (conditions entry) (check entry))
    (entries : List α) : Scans (entries.flatMap conditions) (entries.findSome? check) := by
  induction entries with
  | nil => exact .nil
  | cons entry rest ih =>
    have step : (entry :: rest).findSome? check = (check entry <|> rest.findSome? check) := by
      rw [List.findSome?_cons]
      cases check entry <;> rfl
    rw [step, List.flatMap_cons]
    exact (each entry).append ih

end Scans

/-! ## The conditions of a draft -/

namespace Draft

/-- That a name is legal; an empty name and any other one are different faults. -/
def nameCondition (role : NameRole) (name : String) : Condition where
  holds := LegalName name
  fault := .badName (if name = "" then .empty role else .notIdentifier role name)

/-- That the name of a field is legal, and that none of the fields before it has this name. -/
def fieldConditions (fields : List String) (field : String) (place : Nat) : List Condition :=
  [nameCondition .outputField field, ⟨field ∉ fields.take place, .duplicateField field⟩]

/-- That a rule has a name, and a pattern as wide as the input. -/
def ruleConditions (width : Nat) (rule : Rule) : List Condition :=
  [⟨rule.name ≠ "", .badName (.empty .rule)⟩,
    ⟨rule.pattern.length = width, .patternWidth rule.name width rule.pattern.length⟩]

/-- All conditions on a draft in the order in which they are looked at. -/
def conditions (draft : Draft) : List Condition :=
  [nameCondition .module draft.moduleName,
    ⟨0 < draft.width, .nonPositiveWidth draft.width⟩,
    nameCondition .outputType draft.output.typeName,
    ⟨draft.output.fields ≠ [], .noFields⟩] ++
  (draft.output.fields.zipIdx.flatMap fun (field, place) =>
    fieldConditions draft.output.fields field place) ++
  draft.rules.flatMap (ruleConditions draft.width.toNat)

theorem scans_nameFault? (role : NameRole) (name : String) :
    Scans [nameCondition role name] (nameFault? role name) := by
  have split : nameFault? role name =
      if isIdentifier name = false then
        some (.badName (if name = "" then .empty role else .notIdentifier role name))
      else none := by
    unfold nameFault? identifierFault?
    by_cases empty : name = ""
    · subst empty
      rfl
    · cases isIdentifier name <;> simp [empty]
  rw [split]
  apply scans_ite
  rw [Bool.not_eq_false, isIdentifier_iff_legalName]

theorem scans_ruleFault? (width : Nat) (rule : Rule) :
    Scans (ruleConditions width rule) (ruleFault? width rule) := by
  have split : ruleFault? width rule =
      ((if rule.name = "" then some (.badName (.empty .rule)) else none) <|>
        if rule.pattern.length ≠ width then
          some (.patternWidth rule.name width rule.pattern.length) else none) := by
    unfold ruleFault?
    by_cases unnamed : rule.name = "" <;> simp [unnamed]
  rw [split]
  exact (scans_ite Iff.rfl).append (scans_ite not_not)

/-- The scan of the fields behind some others, which it remembers in any order. -/
theorem scans_fieldFault? (front rest earlier : List String)
    (seen : ∀ field, field ∈ earlier ↔ field ∈ front) :
    Scans ((rest.zipIdx front.length).flatMap fun (field, place) =>
      fieldConditions (front ++ rest) field place) (fieldFault? earlier rest) := by
  induction rest generalizing front earlier with
  | nil => exact .nil
  | cons field rest ih =>
    have here : (front ++ field :: rest).take front.length = front := List.take_left
    have shifted : front ++ field :: rest = front ++ [field] ++ rest := by simp
    -- The newest name is remembered first, but the scan only asks for membership.
    have seenNext : ∀ other, other ∈ field :: earlier ↔ other ∈ front ++ [field] := by
      intro other
      simp [seen, or_comm]
    have later := ih (front ++ [field]) (field :: earlier) seenNext
    rw [List.length_append, List.length_singleton, ← shifted] at later
    have fresh : Scans [⟨field ∉ front, .duplicateField field⟩]
        (if field ∈ earlier then some (.duplicateField field) else none) :=
      scans_ite (by rw [seen])
    simp only [List.zipIdx_cons, List.flatMap_cons, fieldConditions, here, fieldFault?]
    exact (scans_nameFault? .outputField field).append (fresh.append later)

theorem scans_fault? (draft : Draft) : Scans draft.conditions draft.fault? := by
  have fields : Scans (draft.output.fields.zipIdx.flatMap fun (field, place) =>
      fieldConditions draft.output.fields field place) (fieldFault? [] draft.output.fields) :=
    scans_fieldFault? [] draft.output.fields [] (by simp)
  have rules := scans_findSome? (scans_ruleFault? draft.width.toNat) draft.rules
  have width : Scans [⟨0 < draft.width, .nonPositiveWidth draft.width⟩]
      (if draft.width ≤ 0 then some (.nonPositiveWidth draft.width) else none) :=
    scans_ite Int.not_le
  have declared : Scans [⟨draft.output.fields ≠ [], .noFields⟩]
      (if draft.output.fields = [] then some .noFields else none) := scans_ite Iff.rfl
  have all := (scans_nameFault? .module draft.moduleName).append <| width.append <|
    (scans_nameFault? .outputType draft.output.typeName).append <| declared.append <|
      fields.append rules
  simpa only [conditions, fault?, List.append_assoc, List.cons_append, List.nil_append] using all

/-- The well-formed drafts, with their names and widths as they are written. -/
theorem wellFormed_iff_legal (draft : Draft) :
    draft.WellFormed ↔
      LegalName draft.moduleName ∧ 0 < draft.width ∧ LegalName draft.output.typeName ∧
        draft.output.fields ≠ [] ∧ (∀ field ∈ draft.output.fields, LegalName field) ∧
        draft.output.fields.Nodup ∧
        ∀ rule ∈ draft.rules, rule.name ≠ "" ∧ (rule.pattern.length : Int) = draft.width := by
  simp only [← isIdentifier_iff_legalName]
  constructor
  · rintro ⟨moduleName, width, typeName, nonempty, fields, distinct, named, patterns⟩
    refine ⟨moduleName, width, typeName, nonempty, fields, distinct, fun rule member => ?_⟩
    have symbols := patterns rule member
    exact ⟨named rule member, by omega⟩
  · rintro ⟨moduleName, width, typeName, nonempty, fields, distinct, rules⟩
    refine ⟨moduleName, width, typeName, nonempty, fields, distinct,
      fun rule member => (rules rule member).1, fun rule member => ?_⟩
    have symbols := (rules rule member).2
    omega

end Draft

/-- A draft is accepted if and only if its names are legal, its width is positive, its fields are
some and distinct, and its rules are named and as wide as the input. A table holds the draft as it
was given. A draft that is refused has the fault of the first condition that it violates. -/
theorem Table.ofDraft_reports_first_fault (draft : Draft) :
    ((∃ table, Table.ofDraft draft = .ok table) ↔
      LegalName draft.moduleName ∧ 0 < draft.width ∧ LegalName draft.output.typeName ∧
        draft.output.fields ≠ [] ∧ (∀ field ∈ draft.output.fields, LegalName field) ∧
        draft.output.fields.Nodup ∧
        ∀ rule ∈ draft.rules, rule.name ≠ "" ∧ (rule.pattern.length : Int) = draft.width) ∧
    (∀ table, Table.ofDraft draft = .ok table →
      table.toDraft = draft ∧ (table.inputWidth : Int) = draft.width) ∧
    ∀ fault, Table.ofDraft draft = .error fault ↔ FirstFault draft.conditions fault := by
  refine ⟨?_, fun table accepted => ?_, fun fault => ?_⟩
  · rw [← draft.wellFormed_iff_legal]
    constructor
    · rintro ⟨table, accepted⟩
      exact (Table.ofDraft_eq_ok_iff draft table).mp accepted ▸ table.wellFormed
    · intro wellFormed
      exact ⟨⟨draft, wellFormed⟩, (Table.ofDraft_eq_ok_iff draft _).mpr rfl⟩
  · obtain rfl := (Table.ofDraft_eq_ok_iff draft table).mp accepted
    have positive := table.wellFormed.width
    refine ⟨rfl, ?_⟩
    unfold Table.inputWidth
    omega
  · rw [Table.ofDraft_eq_error_iff, draft.scans_fault?.some_iff]

/-- A draft with a repeated field in front of a reserved one and of a rule without a name. -/
def repeatedDraft : Draft where
  moduleName := "dec"
  width := 2
  output := ⟨"ctrl_t", ["load", "store", "load", "end"]⟩
  rules := [⟨"", "1", [], true⟩]

/-- The repeated field is the first fault of its draft, and the layered draft has none. -/
theorem repeated_field_reported :
    Table.ofDraft repeatedDraft = .error (.duplicateField "load") ∧
      Table.ofDraft layeredDraft = .ok layered ∧ layered.toDraft = layeredDraft ∧
        (layered.inputWidth : Int) = 2 := by
  have accepted : Table.ofDraft layeredDraft = .ok layered :=
    (Table.ofDraft_eq_ok_iff layeredDraft layered).mpr rfl
  have legal : ∀ name ∈ ["dec", "ctrl_t", "load", "store"], LegalName name := by
    simp only [← isIdentifier_iff_legalName]
    decide +kernel
  refine ⟨?_, accepted, (Table.ofDraft_reports_first_fault layeredDraft).2.1 layered accepted⟩
  refine ((Table.ofDraft_reports_first_fault repeatedDraft).2.2 _).mpr
    ⟨repeatedDraft.conditions.take 9, ⟨"load" ∉ ["load", "store"], .duplicateField "load"⟩,
      repeatedDraft.conditions.drop 10, rfl, ?_, by decide, rfl⟩
  simp only [List.forall_mem_cons, List.not_mem_nil, false_implies, implies_true, and_true] at legal
  obtain ⟨module, type, load, store⟩ := legal
  simpa [repeatedDraft, Draft.conditions, Draft.nameCondition, Draft.fieldConditions] using
    And.intro module ⟨type, load, store, load⟩

end DecoderGen
