import DecoderGen.Proofs.DocumentShape
import DecoderGen.Proofs.JsonReading

/-! # Table documents are read back

A draft whose width has 64 bits can be written as a document, whatever its strings contain. Every
text of such a document is read as the draft again: blanks, the order of keys and the choice of
escapes make no difference. What can still be wrong with the text is what is wrong with the draft.
-/

namespace DecoderGen

namespace Json

theorem elementDepth_le {elements : List Json} {bound : Nat}
    (each : ∀ element ∈ elements, element.depth ≤ bound) : elementDepth elements ≤ bound := by
  induction elements with
  | nil => exact Nat.zero_le bound
  | cons element elements ih =>
    obtain ⟨first, later⟩ := List.forall_mem_cons.mp each
    rw [elementDepth]
    exact Nat.max_le.mpr ⟨first, ih later⟩

theorem memberDepth_le {members : List (String × Json)} {bound : Nat}
    (each : ∀ member ∈ members, member.2.depth ≤ bound) : memberDepth members ≤ bound := by
  induction members with
  | nil => exact Nat.zero_le bound
  | cons member members ih =>
    obtain ⟨first, later⟩ := List.forall_mem_cons.mp each
    rw [memberDepth]
    exact Nat.max_le.mpr ⟨first, ih later⟩

end Json

theorem Table.ofDraft_eq_error {draft : Draft} {fault : TableFault}
    (found : draft.fault? = some fault) : Table.ofDraft draft = .error fault :=
  (Table.ofDraft_eq_error_iff draft fault).mpr found

namespace Document

/-! ## Documents -/

/-- An object with the given members in any order. -/
inductive IsObject (fields : List (String × Json)) : Json → Prop
  | object {members : List (String × Json)} (order : members.Perm fields) :
      IsObject fields (.object members)

/-- A value is the document of a draft. -/
inductive Describes (draft : Draft) (value : Json) : Prop
  | members {output : Json} {rules : List Json}
      (whole : IsObject (draftMembers draft output rules) value)
      (schema : IsObject (schemaMembers draft.output) output)
      (each : List.Forall₂ (fun rule value => IsObject (ruleMembers rule) value) draft.rules rules)

/-- A text is the document of a draft. -/
def Writes (draft : Draft) (text : String) : Prop :=
  ∃ value : Json, Describes draft value ∧ value.Writes text

/-- The text of a draft without blanks. -/
def render (draft : Draft) : String := (inOrder draft).render

theorem describes_inOrder (draft : Draft) : Describes draft (inOrder draft) := by
  refine .members (.object (.refl _)) (.object (.refl _)) ?_
  rw [List.forall₂_map_right_iff, List.forall₂_same]
  exact fun rule _ => .object (.refl _)

theorem writable_textList (texts : List String) : (textList texts).Writable := by
  refine Json.writable_array ?_
  rw [List.forall_mem_map]
  exact fun text _ => Json.writable_string text

theorem writes_render {draft : Draft} (above : -0x8000000000000000 ≤ draft.width)
    (below : draft.width < 0x8000000000000000) : Writes draft (render draft) := by
  have schema : (Json.object (schemaMembers draft.output)).Writable := by
    refine Json.writable_object ?_
    simp only [schemaMembers, List.forall_mem_cons]
    exact ⟨Json.writable_string _, writable_textList _, List.forall_mem_nil _⟩
  have rule : ∀ rule ∈ draft.rules, (Json.object (ruleMembers rule)).Writable := by
    intro rule _
    refine Json.writable_object ?_
    simp only [ruleMembers, List.forall_mem_cons]
    exact ⟨Json.writable_string _, Json.writable_string _, writable_textList _,
      Json.writable_bool _, List.forall_mem_nil _⟩
  have rules : (Json.array (draft.rules.map fun rule => .object (ruleMembers rule))).Writable := by
    refine Json.writable_array ?_
    rwa [List.forall_mem_map]
  have whole : (inOrder draft).Writable := by
    refine Json.writable_object ?_
    simp only [draftMembers, List.forall_mem_cons]
    exact ⟨Json.writable_string _, Json.writable_integer above (by omega), schema, rules,
      List.forall_mem_nil _⟩
  exact ⟨inOrder draft, describes_inOrder draft, whole.writes_render⟩

/-! ## Depth -/

theorem IsObject.depth_le {fields : List (String × Json)} {value : Json}
    (object : IsObject fields value) {bound : Nat}
    (each : ∀ field ∈ fields, field.2.depth ≤ bound) : value.depth ≤ bound + 1 := by
  obtain ⟨order⟩ := object
  rw [Json.depth]
  refine Nat.succ_le_succ (Json.memberDepth_le fun member listed => ?_)
  exact each member (order.mem_iff.mp listed)

theorem depth_textList (texts : List String) : (textList texts).depth ≤ 1 := by
  rw [textList, Json.depth]
  refine Nat.succ_le_succ (Json.elementDepth_le ?_)
  rw [List.forall_mem_map]
  exact fun text _ => Nat.le_refl 0

theorem elementDepth_rules {rules : List Rule} {values : List Json}
    (each : List.Forall₂ (fun rule value => IsObject (ruleMembers rule) value) rules values) :
    Json.elementDepth values ≤ 2 := by
  induction each with
  | nil => exact Nat.zero_le 2
  | @cons rule value _ _ first _ ih =>
    have ruleDepth : value.depth ≤ 1 + 1 := by
      refine first.depth_le ?_
      simp only [ruleMembers, List.forall_mem_cons]
      exact ⟨Nat.zero_le _, Nat.zero_le _, depth_textList _, Nat.zero_le _, List.forall_mem_nil _⟩
    rw [Json.elementDepth]
    exact Nat.max_le.mpr ⟨ruleDepth, ih⟩

/-- Documents are four containers deep: the table, its rules, a rule and its asserted fields. -/
theorem Describes.depth_le {draft : Draft} {value : Json} (describes : Describes draft value) :
    value.depth ≤ 4 := by
  obtain @⟨output, rules, whole, schema, each⟩ := describes
  have schemaDepth : output.depth ≤ 1 + 1 := by
    refine schema.depth_le ?_
    simp only [schemaMembers, List.forall_mem_cons]
    exact ⟨Nat.zero_le _, depth_textList _, List.forall_mem_nil _⟩
  refine whole.depth_le ?_
  simp only [draftMembers, List.forall_mem_cons]
  exact ⟨Nat.zero_le _, Nat.zero_le _, Nat.le_succ_of_le schemaDepth,
    Nat.succ_le_succ (elementDepth_rules each), List.forall_mem_nil _⟩

/-! ## Reading documents -/

theorem IsObject.isRecord {fields : List (String × Json)} {value : Json}
    (object : IsObject fields value) : IsRecord fields value := by
  obtain ⟨order⟩ := object
  exact .object order

/-- Reading recovers a draft from any of its documents. -/
theorem Describes.readDraft {draft : Draft} {value : Json} (describes : Describes draft value)
    (above : -0x8000000000000000 ≤ draft.width) (below : draft.width < 0x8000000000000000) :
    Document.readDraft value = .ok draft := by
  obtain ⟨whole, schema, each⟩ := describes
  refine readDraft_eq_ok_iff.mpr (.record whole.isRecord above below schema.isRecord ?_)
  exact each.imp fun _ _ object => .whole object.isRecord

theorem Writes.parse {draft : Draft} {text : String} (writes : Writes draft text)
    (above : -0x8000000000000000 ≤ draft.width) (below : draft.width < 0x8000000000000000) :
    Document.parse text = (Table.ofDraft draft).mapError .table := by
  obtain ⟨value, describes, written⟩ := writes
  have shallow : value.depth ≤ Json.maxDepth := Nat.le_trans describes.depth_le (by decide)
  simp only [Document.parse, written.parse? shallow, readTable, describes.readDraft above below]

/-- Every document is read as the table of its values or refused for what is wrong with these
values, and every choice of values has a document. -/
theorem parse_written_document (moduleName : String) (width : Int64) (typeName : String)
    (fields : List String) (rules : List Rule) :
    let draft : Draft := ⟨moduleName, width.toInt, ⟨typeName, fields⟩, rules⟩
    Writes draft (render draft) ∧ ∀ text, Writes draft text →
      parse text = (Table.ofDraft draft).mapError .table ∧
        ∀ fault, parse text = .error fault → ∃ inner, fault = .table inner := by
  intro draft
  have above : -0x8000000000000000 ≤ draft.width := width.le_toInt
  have below : draft.width < 0x8000000000000000 := width.toInt_lt
  refine ⟨writes_render above below, fun text writes => ?_⟩
  have read := writes.parse above below
  refine ⟨read, fun fault refused => ?_⟩
  rw [read] at refused
  cases made : Table.ofDraft draft with
  | error inner =>
    rw [made] at refused
    exact ⟨inner, (Except.error.inj refused).symm⟩
  | ok table =>
    rw [made] at refused
    cases refused

/-- The lowest width of 64 bits, and strings with quotes, backslashes, control characters and a
character beyond 16 bits. -/
def lowestDraft : Draft :=
  ⟨"decoder", Int64.minValue.toInt, ⟨"signals_t", ["on"]⟩,
    [⟨"a\"b\\c", "\x1f0", ["\n", "𝄞"], false⟩]⟩

theorem lowest_width_refused :
    let text :=
      "\x7b\"module_name\":\"decoder\",\"input\":-9223372036854775808," ++
        "\"output\":\x7b\"type_name\":\"signals_t\",\"fields\":[\"on\"]\x7d," ++
        "\"decodes\":[\x7b\"instr\":\"a\\\"b\\\\c\",\"match\":\"\\u001f0\"," ++
        "\"decodes\":[\"\\u000a\",\"𝄞\"],\"enabled\":false\x7d]\x7d"
    Writes lowestDraft text ∧
      parse text = .error (.table (.nonPositiveWidth (-9223372036854775808))) := by
  intro text
  have same : text = render lowestDraft := by decide +kernel
  obtain ⟨writes, reads⟩ := parse_written_document lowestDraft.moduleName Int64.minValue
    lowestDraft.output.typeName lowestDraft.output.fields lowestDraft.rules
  have refused : Table.ofDraft lowestDraft = .error (.nonPositiveWidth (-9223372036854775808)) :=
    Table.ofDraft_eq_error (by decide +kernel)
  rw [same]
  exact ⟨writes, (reads _ writes).1.trans (congrArg (Except.mapError Fault.table) refused)⟩

end Document
end DecoderGen
