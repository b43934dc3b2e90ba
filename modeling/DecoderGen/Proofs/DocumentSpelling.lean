import DecoderGen.Proofs.DocumentShape
import Mathlib.Logic.Relation

/-! # Spellings of a document

A document may list its members in another order, write a record as an array of its values or leave
out that a rule is enabled. The documents of a draft are exactly what such changes make of one of
them, and all are read alike. A value that is a document of no draft is refused for its shape.
-/

namespace DecoderGen

namespace Json.Numeral

variable {numeral : Numeral} {value : Int}

/-- A literal that stands for an integer by its sign and its digits alone, where zero has no sign. -/
structure Denotes (numeral : Numeral) (value : Int) : Prop where
  whole : numeral.fraction = none
  plain : numeral.exponent = none
  unsigned : value = 0 → numeral.negative = false
  digits : value = if numeral.negative then -(natural numeral.whole : Int) else natural numeral.whole

theorem integer?_eq_some_iff (above : -0x8000000000000000 ≤ value)
    (below : value < 0x8000000000000000) : numeral.integer? = some value ↔ numeral.Denotes value := by
  have negatives : maxNegative = 0x8000000000000000 := rfl
  have significands : maxSignificand = 0xFFFFFFFFFFFFFFFF := rfl
  constructor
  · intro read
    simp only [integer?] at read
    split at read
    · cases read
    · next plain =>
      simp only [Bool.or_eq_true, Option.isSome_iff_ne_none, not_or, not_not] at plain
      obtain ⟨whole, plain⟩ := plain
      split at read
      · next negative =>
        split at read
        · cases read
        · next fits =>
          obtain rfl := Option.some.inj read
          exact ⟨whole, plain, by omega, (if_pos negative).symm⟩
      · next positive =>
        split at read
        · cases read
        · obtain rfl := Option.some.inj read
          exact ⟨whole, plain, fun _ => Bool.eq_false_iff.mpr positive, (if_neg positive).symm⟩
  · rintro ⟨whole, plain, unsigned, digits⟩
    simp only [integer?, whole, plain, Option.isSome_none, Bool.or_self, Bool.false_eq_true, if_false]
    split at digits
    · next negative =>
      have nonzero : value ≠ 0 := by
        intro zero
        rw [unsigned zero] at negative
        cases negative
      rw [if_pos negative, if_neg (by omega), digits]
    · next positive => rw [if_neg positive, if_neg (by omega), digits]

theorem value?_eq_integer_iff (above : -0x8000000000000000 ≤ value)
    (below : value < 0x8000000000000000) :
    numeral.value? = some (.integer value) ↔ numeral.Denotes value := by
  rw [← integer?_eq_some_iff above below, value?]
  cases numeral.integer? with
  | some found => simp
  | none => cases numeral.real? <;> simp

end Json.Numeral

namespace Document

/-! ## Changes of spelling -/

/-- One change in the spelling of a record: another order of its members, or an array of their values
instead of an object. -/
inductive Record.Respells (record : Record) : Json → Json → Prop
  | reorder {members others : List (String × Json)} (order : members.Perm others) :
      record.Respells (.object members) (.object others)
  | array {elements : List Json} (fits : elements.length ≤ record.keys.length) :
      record.Respells (.object (record.keys.zip elements)) (.array elements)

/-- One change in the spelling of a rule, which may also say that it is enabled. -/
inductive RespellsRule : Json → Json → Prop
  | record {one other : Json} (step : Record.rule.Respells one other) : RespellsRule one other
  | enabled {members : List (String × Json)} (absent : "enabled" ∉ members.map Prod.fst) :
      RespellsRule (.object members) (.object (("enabled", .bool true) :: members))

/-- One change in the spelling of a document: of the table, of its output or of one of its rules. -/
inductive Respells : Json → Json → Prop
  | table {one other : Json} (step : Record.table.Respells one other) : Respells one other
  | output {one other : Json} {rest : List (String × Json)}
      (step : Record.output.Respells one other) :
      Respells (.object (("output", one) :: rest)) (.object (("output", other) :: rest))
  | rule {one other : Json} {before after : List Json} {rest : List (String × Json)}
      (step : RespellsRule one other) :
      Respells (.object (("decodes", .array (before ++ one :: after)) :: rest))
        (.object (("decodes", .array (before ++ other :: after)) :: rest))

/-! ## Changes keep the draft -/

section Steps

variable {record : Record} {fields : List (String × Json)} {one other : Json} {rule : Rule}
  {draft : Draft}

theorem Record.Respells.isRecord_iff (step : record.Respells one other)
    (listed : fields.map Prod.fst <+: record.keys) (enough : record.required ≤ fields.length) :
    IsRecord fields one ↔ IsRecord fields other := by
  cases step with
  | reorder order =>
    constructor
    · rintro ⟨same⟩
      exact .object (order.symm.trans same)
    · rintro ⟨same⟩
      exact .object (order.trans same)
  | @array elements fits =>
    rw [isRecord_iff_spells listed enough, isRecord_iff_spells listed enough]
    constructor
    · rintro ⟨_, ⟨⟩, order⟩
      -- The array is long enough, for it has as many elements as there are members.
      have size := order.length_eq
      rw [List.length_zip, Nat.min_eq_right fits] at size
      exact ⟨_, .array (by omega) fits, order⟩
    · rintro ⟨_, ⟨⟩, order⟩
      exact ⟨_, .object _, order⟩

/-- Only one member has a given key, so it can be split off. -/
theorem cons_perm_iff {key : String} {found value : Json} {rest front back : List (String × Json)}
    (fresh : key ∉ (front ++ back).map Prod.fst) :
    ((key, found) :: rest).Perm (front ++ (key, value) :: back) ↔
      found = value ∧ rest.Perm (front ++ back) := by
  constructor
  · intro order
    have order := order.trans List.perm_middle
    rcases List.mem_cons.mp (order.subset List.mem_cons_self) with same | elsewhere
    · obtain rfl := (Prod.mk.inj same).2
      exact ⟨rfl, order.cons_inv⟩
    · exact absurd (List.mem_map_of_mem (f := Prod.fst) elsewhere) fresh
  · rintro ⟨rfl, order⟩
    exact (order.cons _).trans List.perm_middle.symm

theorem cons_enabled_perm_iff {flag : Json} {members : List (String × Json)} :
    (("enabled", flag) :: members).Perm (ruleMembers rule) ↔
      flag = .bool rule.enabled ∧ members.Perm ((ruleMembers rule).take Record.rule.required) := by
  refine @cons_perm_iff "enabled" flag (.bool rule.enabled) members
    ((ruleMembers rule).take Record.rule.required) [] ?_
  simp [ruleMembers, Record.required]

theorem RespellsRule.isRule_iff (step : RespellsRule one other) :
    IsRule rule one ↔ IsRule rule other := by
  cases step with
  | record step =>
    have whole : IsRecord (ruleMembers rule) one ↔ IsRecord (ruleMembers rule) other :=
      step.isRecord_iff (List.prefix_refl _) (Nat.le_succ 3)
    have brief := step.isRecord_iff (keys_brief rule) (Nat.le_refl 3)
    constructor
    · rintro (isRecord | ⟨enabled, isRecord⟩)
      · exact .whole (whole.mp isRecord)
      · exact .brief enabled (brief.mp isRecord)
    · rintro (isRecord | ⟨enabled, isRecord⟩)
      · exact .whole (whole.mpr isRecord)
      · exact .brief enabled (brief.mpr isRecord)
  | @enabled members absent =>
    constructor
    · rintro (⟨⟨order⟩⟩ | ⟨enabled, ⟨order⟩⟩)
      · refine absurd ?_ absent
        rw [(order.map Prod.fst).mem_iff]
        simp [ruleMembers]
      · exact .whole (.object (cons_enabled_perm_iff.mpr ⟨by rw [enabled], order⟩))
    · rintro (⟨⟨order⟩⟩ | ⟨_, ⟨order⟩⟩)
      · obtain ⟨flag, order⟩ := cons_enabled_perm_iff.mp order
        exact .brief (Json.bool.inj flag).symm (.object order)
      · have among := (order.map Prod.fst).subset List.mem_cons_self
        simp [ruleMembers, Record.required] at among

theorem IsDocument.replace_output {rest : List (String × Json)}
    (isDocument : IsDocument draft (.object (("output", one) :: rest)))
    (same : IsRecord (schemaMembers draft.output) one → IsRecord (schemaMembers draft.output) other) :
    IsDocument draft (.object (("output", other) :: rest)) := by
  obtain @⟨output, rules, ⟨order⟩, above, below, schema, each⟩ := isDocument
  have split (found value : Json) := @cons_perm_iff "output" found value rest
    ((draftMembers draft value rules).take 2) ((draftMembers draft value rules).drop 3)
    (by simp [draftMembers])
  obtain ⟨rfl, order⟩ := (split one output).mp order
  exact .record (.object ((split other other).mpr ⟨rfl, order⟩)) above below (same schema) each

theorem forall₂_replace {α : Type} {related : α → Json → Prop} {list : List α}
    {before after : List Json} (pairs : List.Forall₂ related list (before ++ one :: after))
    (same : ∀ left, related left one → related left other) :
    List.Forall₂ related list (before ++ other :: after) := by
  induction before generalizing list with
  | nil =>
    obtain _ | ⟨first, rest⟩ := pairs
    exact .cons (same _ first) rest
  | cons value before ih =>
    obtain _ | ⟨first, rest⟩ := pairs
    exact .cons first (ih rest)

theorem IsDocument.replace_rule {before after : List Json} {rest : List (String × Json)}
    (isDocument :
      IsDocument draft (.object (("decodes", .array (before ++ one :: after)) :: rest)))
    (same : ∀ rule, IsRule rule one → IsRule rule other) :
    IsDocument draft (.object (("decodes", .array (before ++ other :: after)) :: rest)) := by
  obtain @⟨output, rules, ⟨order⟩, above, below, schema, each⟩ := isDocument
  have split (found value : List Json) := @cons_perm_iff "decodes" (.array found) (.array value) rest
    ((draftMembers draft output value).take 3) [] (by simp [draftMembers])
  obtain ⟨listed, order⟩ := (split _ rules).mp order
  obtain rfl := Json.array.inj listed
  exact .record (.object ((split _ _).mpr ⟨rfl, order⟩)) above below schema
    (forall₂_replace each same)

/-- A change of spelling keeps the draft. -/
theorem Respells.isDocument_iff (step : Respells one other) :
    IsDocument draft one ↔ IsDocument draft other := by
  cases step with
  | table step =>
    have whole (output : Json) (rules : List Json) :
        IsRecord (draftMembers draft output rules) one ↔
          IsRecord (draftMembers draft output rules) other :=
      step.isRecord_iff (List.prefix_refl _) (Nat.le_refl 4)
    constructor
    · rintro ⟨isRecord, above, below, schema, each⟩
      exact .record ((whole _ _).mp isRecord) above below schema each
    · rintro ⟨isRecord, above, below, schema, each⟩
      exact .record ((whole _ _).mpr isRecord) above below schema each
  | @output one other rest step =>
    have same : IsRecord (schemaMembers draft.output) one ↔
        IsRecord (schemaMembers draft.output) other :=
      step.isRecord_iff (List.prefix_refl _) (Nat.le_refl 2)
    exact ⟨fun isDocument => isDocument.replace_output same.mp,
      fun isDocument => isDocument.replace_output same.mpr⟩
  | rule step =>
    exact ⟨fun isDocument => isDocument.replace_rule fun _ => step.isRule_iff.mp,
      fun isDocument => isDocument.replace_rule fun _ => step.isRule_iff.mpr⟩

/-- Any number of changes, made or undone, keeps the draft. -/
theorem isDocument_iff_of_respelled (respelled : Relation.EqvGen Respells one other) :
    IsDocument draft one ↔ IsDocument draft other := by
  induction respelled with
  | rel _ _ step => exact step.isDocument_iff
  | refl _ => exact Iff.rfl
  | symm _ _ _ ih => exact ih.symm
  | trans _ _ _ _ _ first second => exact first.trans second

end Steps

/-! ## Changes lead to every document of the draft -/

section Canonical

variable {record : Record} {fields : List (String × Json)} {value : Json} {rule : Rule}
  {draft : Draft}

/-- Changes of a part are changes of the whole. -/
theorem respelled_inside {part whole : Json → Json → Prop} (inside : Json → Json)
    (lift : ∀ one other, part one other → whole (inside one) (inside other)) {one other : Json}
    (respelled : Relation.EqvGen part one other) :
    Relation.EqvGen whole (inside one) (inside other) := by
  induction respelled with
  | rel one other step => exact .rel _ _ (lift one other step)
  | refl one => exact .refl _
  | symm _ _ _ ih => exact .symm _ _ ih
  | trans _ _ _ _ _ first second => exact .trans _ _ _ first second

theorem IsRecord.respelled (isRecord : IsRecord fields value)
    (listed : fields.map Prod.fst <+: record.keys) :
    Relation.EqvGen record.Respells value (.object fields) := by
  cases isRecord with
  | object order => exact .rel _ _ (.reorder order)
  | array =>
    have fits := listed.length_le
    rw [List.length_map] at fits
    apply Relation.EqvGen.symm
    apply Relation.EqvGen.rel
    have step : record.Respells (.object (record.keys.zip (fields.map Prod.snd)))
        (.array (fields.map Prod.snd)) := .array (by rwa [List.length_map])
    rwa [zip_map_snd listed] at step

theorem IsRule.respelled (isRule : IsRule rule value) :
    Relation.EqvGen RespellsRule value (.object (ruleMembers rule)) := by
  rcases isRule with isRecord | ⟨enabled, isRecord⟩
  · exact respelled_inside id (fun _ _ => .record) (isRecord.respelled (List.prefix_refl _))
  · have brief := respelled_inside id (fun _ _ => RespellsRule.record)
      (isRecord.respelled (keys_brief rule))
    have absent : "enabled" ∉ ((ruleMembers rule).take Record.rule.required).map Prod.fst := by
      simp [ruleMembers, Record.required]
    have order : (("enabled", .bool true) :: (ruleMembers rule).take Record.rule.required).Perm
        (ruleMembers rule) := cons_enabled_perm_iff.mpr ⟨by rw [enabled], .refl _⟩
    exact (brief.trans _ _ _ (.rel _ _ (.enabled absent))).trans _ _ _
      (.rel _ _ (.record (.reorder order)))

theorem respelled_rules {rules : List Rule} {values before : List Json}
    {rest : List (String × Json)} (each : List.Forall₂ IsRule rules values) :
    Relation.EqvGen Respells (.object (("decodes", .array (before ++ values)) :: rest))
      (.object (("decodes", .array (before ++ rules.map fun rule => .object (ruleMembers rule))) ::
        rest)) := by
  induction each generalizing before with
  | nil => exact .refl _
  | @cons rule value rules values isRule _ ih =>
    have first := respelled_inside
      (fun value => .object (("decodes", .array (before ++ value :: values)) :: rest))
      (fun _ _ => Respells.rule) isRule.respelled
    have later := @ih (before ++ [.object (ruleMembers rule)])
    rw [← List.append_cons, ← List.append_cons] at later
    exact first.trans _ _ _ later

/-- A member that can be changed as the first one can be changed where it stands. -/
theorem respelled_in_place {key : String} {one other : Json} (front back : List (String × Json))
    (first : Relation.EqvGen Respells (.object ((key, one) :: (front ++ back)))
      (.object ((key, other) :: (front ++ back)))) :
    Relation.EqvGen Respells (.object (front ++ (key, one) :: back))
      (.object (front ++ (key, other) :: back)) := by
  have ahead (value : Json) : Relation.EqvGen Respells (.object (front ++ (key, value) :: back))
      (.object ((key, value) :: (front ++ back))) :=
    .rel _ _ (.table (.reorder List.perm_middle))
  have changed := (ahead one).trans _ _ _ first
  exact changed.trans _ _ _ ((ahead other).symm _ _)

/-- Every document of a draft is another spelling of the one with everything in its usual place. -/
theorem IsDocument.respelled (isDocument : IsDocument draft value) :
    Relation.EqvGen Respells value (inOrder draft) := by
  obtain @⟨output, rules, whole, _, _, schema, each⟩ := isDocument
  have table : Relation.EqvGen Respells value (.object (draftMembers draft output rules)) :=
    respelled_inside id (fun _ _ => .table) (whole.respelled (List.prefix_refl _))
  have result : Relation.EqvGen Respells (.object (draftMembers draft output rules))
      (.object (draftMembers draft (.object (schemaMembers draft.output)) rules)) := by
    apply respelled_in_place [_, _] [_]
    exact respelled_inside (fun value => .object (("output", value) :: _)) (fun _ _ => .output)
      (schema.respelled (List.prefix_refl _))
  have decodes : Relation.EqvGen Respells
      (.object (draftMembers draft (.object (schemaMembers draft.output)) rules))
      (inOrder draft) := by
    apply respelled_in_place [_, _, _] []
    exact @respelled_rules _ _ [] _ each
  exact (table.trans _ _ _ result).trans _ _ _ decodes

end Canonical

/-! ## Which values are read -/

theorem IsDocument.readTable {draft : Draft} {value : Json} (isDocument : IsDocument draft value) :
    Document.readTable value = (Table.ofDraft draft).mapError .table := by
  rw [Document.readTable, readDraft_eq_ok_iff.mpr isDocument]

/-- A value is read as the table of a draft if it is a document of the draft, and refused for its
shape if it is a document of none. The documents of a draft are the spellings of one another and give
the same result. A number literal can be their width if it has 64 bits, no fraction, no exponent and
is no negative zero. -/
theorem readTable_by_shape (value : Json) :
    (∀ draft, IsDocument draft value →
      readTable value = (Table.ofDraft draft).mapError .table ∧
      ∀ other, (Relation.EqvGen Respells value other ↔ IsDocument draft other) ∧
        (Relation.EqvGen Respells value other → readTable other = readTable value)) ∧
    ((∀ draft, ¬ IsDocument draft value) → ∃ fault, readTable value = .error (.shape fault)) ∧
    ∀ (numeral : Json.Numeral) (width : Int),
      -0x8000000000000000 ≤ width → width < 0x8000000000000000 →
        (numeral.value? = some (.integer width) ↔ numeral.Denotes width) := by
  refine ⟨fun draft isDocument => ⟨isDocument.readTable, fun other => ⟨⟨?_, ?_⟩, ?_⟩⟩, ?_,
    fun numeral width => Json.Numeral.value?_eq_integer_iff⟩
  · intro respelled
    exact (isDocument_iff_of_respelled respelled).mp isDocument
  · intro again
    exact isDocument.respelled.trans _ _ _ (again.respelled.symm _ _)
  · intro respelled
    have again := (isDocument_iff_of_respelled respelled).mp isDocument
    rw [again.readTable, isDocument.readTable]
  · intro unlike
    cases read : readDraft value with
    | error fault => exact ⟨fault, by rw [readTable, read]⟩
    | ok draft => exact absurd (readDraft_eq_ok_iff.mp read) (unlike draft)

/-- Two rules, of which the second is switched off. -/
def mixedDraft : Draft :=
  ⟨"dec", 2, ⟨"ctrl_t", ["a", "b"]⟩, [⟨"add", "0?", ["a"], true⟩, ⟨"sub", "1?", ["b"], false⟩]⟩

/-- The table is an array; its output is an object with the keys the other way round, its first rule
is an array without a fourth element, and its second rule starts with its last key. -/
def mixedDocument : Json :=
  .array [.string "dec", .integer 2,
    .object [("fields", textList ["a", "b"]), ("type_name", .string "ctrl_t")],
    .array [.array [.string "add", .string "0?", textList ["a"]],
      .object [("enabled", .bool false), ("instr", .string "sub"), ("match", .string "1?"),
        ("decodes", textList ["b"])]]]

/-- Mixed spellings are read as the document with everything in its usual place. -/
theorem mixed_document_read :
    IsDocument mixedDraft mixedDocument ∧
      Relation.EqvGen Respells (inOrder mixedDraft) mixedDocument ∧
      readTable mixedDocument = readTable (inOrder mixedDraft) ∧
      (readTable mixedDocument).isOk = true := by
  have ordered : IsDocument mixedDraft (inOrder mixedDraft) := by
    refine .record (.object (.refl _)) (by decide) (by decide) (.object (.refl _)) ?_
    exact .cons (.whole (.object (.refl _))) (.cons (.whole (.object (.refl _))) .nil)
  have mixed : IsDocument mixedDraft mixedDocument := by
    refine .record .array (by decide) (by decide) (.object (.swap _ _ _)) ?_
    exact .cons (.brief rfl .array) (.cons (.whole (.object (@List.perm_append_comm _ [_] _))) .nil)
  obtain ⟨_, spellings⟩ := (readTable_by_shape (inOrder mixedDraft)).1 mixedDraft ordered
  obtain ⟨spelled, same⟩ := spellings mixedDocument
  exact ⟨mixed, spelled.mpr mixed, same (spelled.mpr mixed), by decide +kernel⟩

end Document

end DecoderGen
