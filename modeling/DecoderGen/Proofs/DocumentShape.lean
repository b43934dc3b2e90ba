import DecoderGen.Document
import Mathlib.Data.List.Nodup
import Mathlib.Data.List.Perm.Basic
import Mathlib.Data.List.Perm.Subperm

/-! # The shape of table documents

A value is a document of a draft if its records have exactly the members that the draft has, as
objects in any order or as arrays, where a rule that is enabled need not say so. Reading a value
succeeds with a draft exactly if the value is a document of it.
-/

namespace DecoderGen.Document

/-! ## Documents -/

/-- A record with the given members: an object that lists them in any order, or an array of their
values. -/
inductive IsRecord (fields : List (String × Json)) : Json → Prop
  | object {members : List (String × Json)} (order : members.Perm fields) :
      IsRecord fields (.object members)
  | array : IsRecord fields (.array (fields.map Prod.snd))

/-- A list of strings. -/
def textList (texts : List String) : Json := .array (texts.map .string)

def schemaMembers (schema : Schema) : List (String × Json) :=
  [("type_name", .string schema.typeName), ("fields", textList schema.fields)]

def ruleMembers (rule : Rule) : List (String × Json) :=
  [("instr", .string rule.name), ("match", .string rule.pattern),
    ("decodes", textList rule.asserted), ("enabled", .bool rule.enabled)]

/-- The members of a document, with its output and its rules as values of their own. -/
def draftMembers (draft : Draft) (output : Json) (rules : List Json) : List (String × Json) :=
  [("module_name", .string draft.moduleName), ("input", .integer draft.width), ("output", output),
    ("decodes", .array rules)]

/-- A rule with all its members, or without the last one if it is enabled. -/
inductive IsRule (rule : Rule) (value : Json) : Prop
  | whole (record : IsRecord (ruleMembers rule) value)
  | brief (enabled : rule.enabled = true)
      (record : IsRecord ((ruleMembers rule).take Record.rule.required) value)

/-- A value is a document of a draft. -/
inductive IsDocument (draft : Draft) (value : Json) : Prop
  | record {output : Json} {rules : List Json}
      (whole : IsRecord (draftMembers draft output rules) value)
      (above : -0x8000000000000000 ≤ draft.width) (below : draft.width < 0x8000000000000000)
      (schema : IsRecord (schemaMembers draft.output) output)
      (each : List.Forall₂ IsRule draft.rules rules)

/-- The document of a draft with its keys in their usual order. -/
def inOrder (draft : Draft) : Json :=
  .object (draftMembers draft (.object (schemaMembers draft.output))
    (draft.rules.map fun rule => .object (ruleMembers rule)))

/-! ## Lists of keyed values -/

section Keys

variable {keys : List String} {elements : List Json} {members fields : List (String × Json)}

theorem keys_zip_isPrefix (keys : List String) (elements : List Json) :
    (keys.zip elements).map Prod.fst <+: keys := by
  induction keys generalizing elements with
  | nil => exact List.prefix_refl _
  | cons key keys ih =>
    cases elements with
    | nil => exact List.nil_prefix
    | cons element elements => exact List.cons_prefix_cons.mpr ⟨rfl, ih elements⟩

/-- Values in the order of the keys get their keys back. -/
theorem zip_map_snd (listed : fields.map Prod.fst <+: keys) :
    keys.zip (fields.map Prod.snd) = fields := by
  induction fields generalizing keys with
  | nil => simp
  | cons field fields ih =>
    obtain ⟨rest, rfl⟩ := listed
    simp only [List.map_cons, List.cons_append, List.zip_cons_cons]
    rw [ih (List.prefix_append _ _)]

/-- Members in the order of their keys are determined by what they are. -/
theorem eq_of_perm_of_keys (order : members.Perm fields)
    (same : members.map Prod.fst = fields.map Prod.fst) (distinct : (fields.map Prod.fst).Nodup) :
    members = fields := by
  induction members generalizing fields with
  | nil => exact order.nil_eq
  | cons member members ih =>
    cases fields with
    | nil => cases same
    | cons field fields =>
      obtain ⟨key, keys⟩ := List.cons.inj same
      obtain ⟨new, others⟩ := List.nodup_cons.mp distinct
      rcases List.mem_cons.mp (order.subset List.mem_cons_self) with rfl | later
      · rw [ih order.cons_inv keys others]
      · exact absurd (key ▸ List.mem_map_of_mem later) new

/-- Members with different keys are known up to their order, once it is known which keys may occur
and a member for each of these is found. -/
theorem perm_of_keys (distinct : (members.map Prod.fst).Nodup)
    (known : ∀ member ∈ members, member.1 ∈ fields.map Prod.fst)
    (listed : (fields.map Prod.fst).Nodup) (present : fields ⊆ members) : members.Perm fields := by
  have within : members.map Prod.fst ⊆ fields.map Prod.fst := by
    intro key among
    obtain ⟨member, listed, rfl⟩ := List.mem_map.mp among
    exact known member listed
  have size := (List.subperm_of_subset distinct within).length_le
  simp only [List.length_map] at size
  have contained := List.subperm_of_subset (List.Nodup.of_map Prod.fst listed) present
  exact (contained.perm_of_length_le size).symm

end Keys

/-! ## Reading single values and lists -/

section Values

variable {value : Json}

theorem bind_eq_ok_iff {ε α β : Type} {first : Except ε α} {next : α → Except ε β} {result : β} :
    first >>= next = .ok result ↔ ∃ found, first = .ok found ∧ next found = .ok result := by
  cases first with
  | error fault => simp [bind, Except.bind]
  | ok found => simp [bind, Except.bind]

theorem map_eq_ok_iff {ε α β : Type} {first : Except ε α} {make : α → β} {result : β} :
    make <$> first = .ok result ↔ ∃ found, first = .ok found ∧ make found = result := by
  cases first with
  | error fault => simp [Functor.map, Except.map]
  | ok found => simp [Functor.map, Except.map]

theorem readText_eq_ok_iff {text : String} : readText value = .ok text ↔ value = .string text := by
  cases value <;> simp [readText]

theorem readFlag_eq_ok_iff {flag : Bool} : readFlag value = .ok flag ↔ value = .bool flag := by
  cases value <;> simp [readFlag]

theorem readInteger_eq_ok_iff {width : Int} :
    readInteger value = .ok width ↔
      value = .integer width ∧ -0x8000000000000000 ≤ width ∧ width < 0x8000000000000000 := by
  cases value with
  | integer found =>
    by_cases within : -halfRange ≤ found ∧ found < halfRange
    · rw [readInteger, if_pos within]
      constructor
      · intro same
        obtain rfl := Except.ok.inj same
        exact ⟨rfl, within⟩
      · rintro ⟨same, _⟩
        rw [Json.integer.inj same]
    · rw [readInteger, if_neg within]
      constructor
      · nofun
      · rintro ⟨same, inside⟩
        exact absurd (Json.integer.inj same ▸ inside) within
  | _ => simp [readInteger]

theorem readEach_eq_ok_iff {α : Type} {read : Json → Except ShapeFault α} {values : List Json}
    {results : List α} :
    readEach read values = .ok results ↔
      List.Forall₂ (fun result value => read value = .ok result) results values := by
  induction values generalizing results with
  | nil => simp [readEach, eq_comm]
  | cons value values ih =>
    simp only [readEach, bind_eq_ok_iff, ih, List.forall₂_cons_right_iff]
    constructor
    · rintro ⟨first, accepted, later, rest, same⟩
      exact ⟨first, later, accepted, rest, (Except.ok.inj same).symm⟩
    · rintro ⟨first, later, accepted, rest, rfl⟩
      exact ⟨first, accepted, later, rest, rfl⟩

theorem readList_eq_ok_iff {α : Type} {read : Json → Except ShapeFault α} {results : List α} :
    readList read value = .ok results ↔ ∃ values, value = .array values ∧
      List.Forall₂ (fun result value => read value = .ok result) results values := by
  cases value with
  | array values => simp [readList, readEach_eq_ok_iff]
  | _ => simp [readList]

theorem readTextList_eq_ok_iff {texts : List String} :
    readList readText value = .ok texts ↔ value = textList texts := by
  simp only [readList_eq_ok_iff, readText_eq_ok_iff, textList]
  constructor
  · rintro ⟨values, rfl, each⟩
    have listed : List.Forall₂ (· = ·) (texts.map Json.string) values :=
      List.forall₂_map_left_iff.mpr (each.imp fun _ _ => Eq.symm)
    rw [List.forall₂_eq_eq_eq] at listed
    rw [listed]
  · rintro rfl
    refine ⟨_, rfl, ?_⟩
    rw [List.forall₂_map_right_iff, List.forall₂_same]
    exact fun text _ => rfl

end Values

/-! ## Reading records -/

section Records

variable {α : Type} {record : Record} {reader : MemberReader α} {value : Json}
  {members fields : List (String × Json)} {results found : List α}

/-- A reader accepts a member with a result. -/
def Reads (reader : MemberReader α) (member : String × Json) (result : α) : Prop :=
  ∃ read, reader member.1 = some read ∧ read member.2 = .ok result

/-- Members are read one by one; their keys are different from one another and from those seen. -/
theorem readMembers_eq_ok_iff {seen : List String} :
    readMembers record reader seen members = .ok results ↔
      List.Forall₂ (Reads reader) members results ∧ (members.map Prod.fst).Nodup ∧
        ∀ member ∈ members, member.1 ∉ seen := by
  induction members generalizing seen results with
  | nil => simp [readMembers, eq_comm]
  | cons member members ih =>
    obtain ⟨key, value⟩ := member
    simp only [List.forall₂_cons_left_iff, List.map_cons, List.nodup_cons, List.forall_mem_cons]
    constructor
    · intro success
      simp only [readMembers] at success
      split at success
      · cases success
      · next read known =>
        split at success
        · cases success
        · next unseen =>
          simp only [bind_eq_ok_iff, ih] at success
          obtain ⟨first, accepted, later, ⟨reads, distinct, others⟩, same⟩ := success
          refine ⟨⟨first, later, ⟨read, known, accepted⟩, reads, (Except.ok.inj same).symm⟩,
            ⟨?_, distinct⟩, unseen, fun member among => ?_⟩
          · intro again
            obtain ⟨member, among, rfl⟩ := List.mem_map.mp again
            exact others member among List.mem_cons_self
          · exact fun before => others member among (List.mem_cons_of_mem _ before)
    · rintro ⟨⟨first, later, ⟨read, known, accepted⟩, reads, rfl⟩, ⟨new, distinct⟩, unseen, others⟩
      -- The key of this member counts as seen from here on, and no later member has it.
      have rest : readMembers record reader (key :: seen) members = .ok later := by
        refine ih.mpr ⟨reads, distinct, fun member among => ?_⟩
        rw [List.mem_cons, not_or]
        refine ⟨?_, others member among⟩
        rintro rfl
        exact new (List.mem_map_of_mem among)
      simp only at known accepted unseen
      simp only [readMembers, known, unseen, if_false, accepted, rest]
      rfl

theorem Record.nodup_keys (record : Record) : record.keys.Nodup := by
  cases record <;> decide

theorem Record.nodup_of_isPrefix (listed : fields.map Prod.fst <+: record.keys) :
    (fields.map Prod.fst).Nodup :=
  record.nodup_keys.sublist listed.sublist

/-- The members of a value by their keys, where an array gives its keys by their order. -/
inductive Record.Spells (record : Record) : List (String × Json) → Json → Prop
  | object (members : List (String × Json)) : record.Spells members (.object members)
  | array {elements : List Json} (enough : record.required ≤ elements.length)
      (fits : elements.length ≤ record.keys.length) :
      record.Spells (record.keys.zip elements) (.array elements)

theorem readRecord_eq_ok_iff :
    readRecord record reader value = .ok results ↔ ∃ members, record.Spells members value ∧
      List.Forall₂ (Reads reader) members results ∧ (members.map Prod.fst).Nodup := by
  constructor
  · intro success
    cases value with
    | object members =>
      obtain ⟨reads, distinct, _⟩ := readMembers_eq_ok_iff.mp success
      exact ⟨members, .object members, reads, distinct⟩
    | array elements =>
      simp only [readRecord, bind_eq_ok_iff] at success
      obtain ⟨read, success, final⟩ := success
      split at final
      · cases final
      · next enough =>
        split at final
        · cases final
        · next fits =>
          obtain rfl := Except.ok.inj final
          obtain ⟨reads, distinct, _⟩ := readMembers_eq_ok_iff.mp success
          exact ⟨_, .array (by omega) (by omega), reads, distinct⟩
    | _ => cases success
  · rintro ⟨members, spelled, reads, distinct⟩
    have success : readMembers record reader [] members = .ok results :=
      readMembers_eq_ok_iff.mpr ⟨reads, distinct, by simp⟩
    cases spelled with
    | object => exact success
    | @array elements enough fits =>
      simp only [readRecord, bind_eq_ok_iff]
      refine ⟨results, success, ?_⟩
      rw [if_neg (by omega), if_neg (by omega)]
      rfl

/-- A record is a value that spells its members in some order. -/
theorem isRecord_iff_spells (listed : fields.map Prod.fst <+: record.keys)
    (enough : record.required ≤ fields.length) :
    IsRecord fields value ↔ ∃ members, record.Spells members value ∧ members.Perm fields := by
  constructor
  · rintro (⟨order⟩ | _)
    · exact ⟨_, .object _, order⟩
    · have fits := listed.length_le
      rw [List.length_map] at fits
      refine ⟨record.keys.zip (fields.map Prod.snd), .array ?_ ?_, .of_eq (zip_map_snd listed)⟩
      · rwa [List.length_map]
      · rwa [List.length_map]
  · rintro ⟨members, spelled, order⟩
    cases spelled with
    | object => exact .object order
    | @array elements _ fits =>
      -- Both lists have as many of the first keys of the record as they have members.
      have size := (order.map Prod.fst).length_eq
      have within := List.prefix_of_prefix_length_le (keys_zip_isPrefix record.keys elements) listed
        (Nat.le_of_eq size)
      have members := eq_of_perm_of_keys order (within.eq_of_length size)
        (Record.nodup_of_isPrefix listed)
      have same : elements = fields.map Prod.snd := by rw [← members, List.map_snd_zip fits]
      rw [same]
      exact .array

/-- A record is read as the results of its members, in some order. -/
theorem IsRecord.readRecord (isRecord : IsRecord fields value) (record : Record)
    (listed : fields.map Prod.fst <+: record.keys) (enough : record.required ≤ fields.length)
    (reads : List.Forall₂ (Reads reader) fields results) :
    ∃ found, found.Perm results ∧ Document.readRecord record reader value = .ok found := by
  obtain ⟨members, spelled, order⟩ := (isRecord_iff_spells listed enough).mp isRecord
  obtain ⟨found, accepted, rearranged⟩ := List.perm_comp_forall₂ order reads
  have distinct := (order.map Prod.fst).nodup_iff.mpr (Record.nodup_of_isPrefix listed)
  exact ⟨found, rearranged, readRecord_eq_ok_iff.mpr ⟨members, spelled, accepted, distinct⟩⟩

/-- A value that spells members with different keys is a record of any that cover these keys. -/
theorem Record.Spells.isRecord (spelled : record.Spells members value)
    (distinct : (members.map Prod.fst).Nodup) (listed : fields.map Prod.fst <+: record.keys)
    (enough : record.required ≤ fields.length)
    (known : ∀ member ∈ members, member.1 ∈ fields.map Prod.fst) (present : fields ⊆ members) :
    IsRecord fields value := by
  refine (isRecord_iff_spells listed enough).mpr ⟨members, spelled, ?_⟩
  exact perm_of_keys distinct known (Record.nodup_of_isPrefix listed) present

theorem require_eq_ok_iff {β : Type} {key : String} {select : α → Option β} {selected : β} :
    require key select found = .ok selected ↔ found.findSome? select = some selected := by
  unfold require
  cases found.findSome? select <;> simp

/-- A selection that at most one result answers does not depend on the order. -/
theorem findSome?_of_perm {β : Type} {select : α → Option β} (order : found.Perm results)
    (only : (results.filterMap select).length ≤ 1) :
    found.findSome? select = results.findSome? select := by
  have selected := order.filterMap select
  rw [← List.head?_filterMap, ← List.head?_filterMap]
  rcases answers : results.filterMap select with _ | ⟨answer, others⟩
  · rw [answers, List.perm_nil] at selected
    rw [selected]
  · rw [answers, List.length_cons] at only
    obtain rfl : others = [] := List.length_eq_zero_iff.mp (by omega)
    rw [answers, List.perm_singleton] at selected
    rw [selected]

end Records

/-! ## Reading the records of a document -/

/-- Partners in one of two lists that are related. -/
theorem exists_of_forall₂ {α β : Type} {related : α → β → Prop} {one : List α} {other : List β}
    (pairs : List.Forall₂ related one other) {right : β} (among : right ∈ other) :
    ∃ left ∈ one, related left right := by
  induction pairs with
  | nil => cases among
  | @cons left _ _ _ first _ ih =>
    rcases List.mem_cons.mp among with rfl | later
    · exact ⟨left, List.mem_cons_self, first⟩
    · obtain ⟨partner, listed, holds⟩ := ih later
      exact ⟨partner, List.mem_cons_of_mem _ listed, holds⟩

/-- How the members of an output are written. -/
inductive OutputMember.Written : OutputMember → String × Json → Prop
  | typeName (text : String) : Written (.typeName text) ("type_name", .string text)
  | fields (texts : List String) : Written (.fields texts) ("fields", textList texts)

theorem OutputMember.reads_iff {member : String × Json} {result : OutputMember} :
    Reads OutputMember.reader member result ↔ result.Written member := by
  constructor
  · rintro ⟨read, known, accepted⟩
    obtain ⟨key, value⟩ := member
    simp only [OutputMember.reader] at known accepted
    split at known
    · cases known
      simp only [map_eq_ok_iff, readText_eq_ok_iff] at accepted
      obtain ⟨text, rfl, rfl⟩ := accepted
      exact .typeName text
    · cases known
      simp only [map_eq_ok_iff, readTextList_eq_ok_iff] at accepted
      obtain ⟨texts, rfl, rfl⟩ := accepted
      exact .fields texts
    · cases known
  · rintro (text | texts)
    · exact ⟨_, rfl, rfl⟩
    · exact ⟨_, rfl, map_eq_ok_iff.mpr ⟨texts, readTextList_eq_ok_iff.mpr rfl, rfl⟩⟩

/-- What was selected from the results of a record came from a member of it. -/
theorem exists_written {α β : Type} (make : β → α) {reader : MemberReader α}
    {select : α → Option β} {members : List (String × Json)} {found : List α} {selected : β}
    (made : ∀ result, select result = some selected → result = make selected)
    (reads : List.Forall₂ (Reads reader) members found)
    (chosen : found.findSome? select = some selected) :
    ∃ member ∈ members, Reads reader member (make selected) := by
  obtain ⟨result, among, selects⟩ := List.exists_of_findSome?_eq_some chosen
  exact exists_of_forall₂ reads (made result selects ▸ among)

theorem readOutput_eq_ok_iff {schema : Schema} {value : Json} :
    readOutput value = .ok schema ↔ IsRecord (schemaMembers schema) value := by
  constructor
  · intro success
    simp only [readOutput, bind_eq_ok_iff, require_eq_ok_iff] at success
    obtain ⟨found, read, typeName, typed, fields, listed, same⟩ := success
    obtain rfl := Except.ok.inj same
    obtain ⟨members, spelled, reads, distinct⟩ := readRecord_eq_ok_iff.mp read
    obtain ⟨_, first, written⟩ :=
      exists_written OutputMember.typeName (by rintro ⟨⟩ ⟨⟩; rfl) reads typed
    cases OutputMember.reads_iff.mp written
    obtain ⟨_, second, written⟩ :=
      exists_written OutputMember.fields (by rintro ⟨⟩ ⟨⟩; rfl) reads listed
    cases OutputMember.reads_iff.mp written
    refine spelled.isRecord distinct (List.prefix_refl _) (Nat.le_refl 2) ?_ ?_
    · intro member among
      obtain ⟨result, _, written⟩ := exists_of_forall₂ reads.flip among
      rcases OutputMember.reads_iff.mp written <;> simp [schemaMembers]
    · simp [schemaMembers, first, second]
  · intro isRecord
    have reads : List.Forall₂ (Reads OutputMember.reader) (schemaMembers schema)
        [.typeName schema.typeName, .fields schema.fields] :=
      .cons (OutputMember.reads_iff.mpr (.typeName _))
        (.cons (OutputMember.reads_iff.mpr (.fields _)) .nil)
    obtain ⟨found, order, read⟩ :=
      isRecord.readRecord .output (List.prefix_refl _) (Nat.le_refl 2) reads
    simp only [readOutput, bind_eq_ok_iff, require_eq_ok_iff]
    exact ⟨found, read, _, findSome?_of_perm order (Nat.le_refl 1), _,
      findSome?_of_perm order (Nat.le_refl 1), rfl⟩

/-- How the members of a rule are written. -/
inductive RuleMember.Written : RuleMember → String × Json → Prop
  | name (text : String) : Written (.name text) ("instr", .string text)
  | pattern (text : String) : Written (.pattern text) ("match", .string text)
  | asserted (texts : List String) : Written (.asserted texts) ("decodes", textList texts)
  | enabled (flag : Bool) : Written (.enabled flag) ("enabled", .bool flag)

theorem RuleMember.reads_iff {member : String × Json} {result : RuleMember} :
    Reads RuleMember.reader member result ↔ result.Written member := by
  constructor
  · rintro ⟨read, known, accepted⟩
    obtain ⟨key, value⟩ := member
    simp only [RuleMember.reader] at known accepted
    split at known
    · cases known
      simp only [map_eq_ok_iff, readText_eq_ok_iff] at accepted
      obtain ⟨text, rfl, rfl⟩ := accepted
      exact .name text
    · cases known
      simp only [map_eq_ok_iff, readText_eq_ok_iff] at accepted
      obtain ⟨text, rfl, rfl⟩ := accepted
      exact .pattern text
    · cases known
      simp only [map_eq_ok_iff, readTextList_eq_ok_iff] at accepted
      obtain ⟨texts, rfl, rfl⟩ := accepted
      exact .asserted texts
    · cases known
      simp only [map_eq_ok_iff, readFlag_eq_ok_iff] at accepted
      obtain ⟨flag, rfl, rfl⟩ := accepted
      exact .enabled flag
    · cases known
  · rintro (text | text | texts | flag)
    · exact ⟨_, rfl, rfl⟩
    · exact ⟨_, rfl, rfl⟩
    · exact ⟨_, rfl, map_eq_ok_iff.mpr ⟨texts, readTextList_eq_ok_iff.mpr rfl, rfl⟩⟩
    · exact ⟨_, rfl, rfl⟩

theorem keys_brief (rule : Rule) :
    ((ruleMembers rule).take Record.rule.required).map Prod.fst <+: Record.rule.keys := by
  rw [List.map_take]
  exact List.take_prefix _ _

theorem readRule_eq_ok_iff {rule : Rule} {value : Json} :
    readRule value = .ok rule ↔ IsRule rule value := by
  constructor
  · intro success
    simp only [readRule, bind_eq_ok_iff, require_eq_ok_iff] at success
    obtain ⟨found, read, name, named, pattern, matched, asserted, listed, same⟩ := success
    obtain rfl := Except.ok.inj same
    obtain ⟨members, spelled, reads, distinct⟩ := readRecord_eq_ok_iff.mp read
    obtain ⟨_, first, written⟩ :=
      exists_written RuleMember.name (by rintro ⟨⟩ ⟨⟩; rfl) reads named
    cases RuleMember.reads_iff.mp written
    obtain ⟨_, second, written⟩ :=
      exists_written RuleMember.pattern (by rintro ⟨⟩ ⟨⟩; rfl) reads matched
    cases RuleMember.reads_iff.mp written
    obtain ⟨_, third, written⟩ :=
      exists_written RuleMember.asserted (by rintro ⟨⟩ ⟨⟩; rfl) reads listed
    cases RuleMember.reads_iff.mp written
    -- All members are known now, except whether there is one for the optional key.
    cases chosen : found.findSome? RuleMember.enabled? with
    | some flag =>
      obtain ⟨_, fourth, written⟩ :=
        exists_written RuleMember.enabled (by rintro ⟨⟩ ⟨⟩; rfl) reads chosen
      cases RuleMember.reads_iff.mp written
      refine .whole (spelled.isRecord distinct (List.prefix_refl _) (Nat.le_succ 3) ?_ ?_)
      · intro member among
        obtain ⟨result, _, written⟩ := exists_of_forall₂ reads.flip among
        rcases RuleMember.reads_iff.mp written <;> simp [ruleMembers]
      · simp [ruleMembers, first, second, third, fourth]
    | none =>
      refine .brief rfl (spelled.isRecord distinct (keys_brief _) (Nat.le_refl 3) ?_ ?_)
      · intro member among
        obtain ⟨result, listed, written⟩ := exists_of_forall₂ reads.flip among
        have unselected := List.findSome?_eq_none_iff.mp chosen result listed
        cases RuleMember.reads_iff.mp written with
        | enabled => cases unselected
        | _ => simp [ruleMembers, Record.required]
      · simp [ruleMembers, Record.required, first, second, third]
  · have reads : List.Forall₂ (Reads RuleMember.reader) (ruleMembers rule)
        [.name rule.name, .pattern rule.pattern, .asserted rule.asserted, .enabled rule.enabled] :=
      .cons (RuleMember.reads_iff.mpr (.name _)) (.cons (RuleMember.reads_iff.mpr (.pattern _))
        (.cons (RuleMember.reads_iff.mpr (.asserted _))
          (.cons (RuleMember.reads_iff.mpr (.enabled _)) .nil)))
    simp only [readRule, bind_eq_ok_iff, require_eq_ok_iff]
    rintro (isRecord | ⟨enabled, isRecord⟩)
    · obtain ⟨found, order, read⟩ :=
        isRecord.readRecord .rule (List.prefix_refl _) (Nat.le_succ 3) reads
      have flag : found.findSome? RuleMember.enabled? = some rule.enabled :=
        findSome?_of_perm order (Nat.le_refl 1)
      refine ⟨found, read, _, findSome?_of_perm order (Nat.le_refl 1), _,
        findSome?_of_perm order (Nat.le_refl 1), _, findSome?_of_perm order (Nat.le_refl 1), ?_⟩
      rw [flag]
      rfl
    · obtain ⟨found, order, read⟩ :=
        isRecord.readRecord .rule (keys_brief rule) (Nat.le_refl 3) (List.forall₂_take 3 reads)
      have flag : found.findSome? RuleMember.enabled? = none :=
        findSome?_of_perm order (Nat.zero_le 1)
      refine ⟨found, read, _, findSome?_of_perm order (Nat.le_refl 1), _,
        findSome?_of_perm order (Nat.le_refl 1), _, findSome?_of_perm order (Nat.le_refl 1), ?_⟩
      rw [flag, Option.getD_none, ← enabled]
      rfl

/-- How the members of a table are written. -/
inductive TableMember.Written : TableMember → String × Json → Prop
  | moduleName (text : String) : Written (.moduleName text) ("module_name", .string text)
  | width (width : Int) (above : -0x8000000000000000 ≤ width) (below : width < 0x8000000000000000) :
      Written (.width width) ("input", .integer width)
  | output {schema : Schema} {value : Json} (isRecord : IsRecord (schemaMembers schema) value) :
      Written (.output schema) ("output", value)
  | rules {rules : List Rule} {values : List Json} (each : List.Forall₂ IsRule rules values) :
      Written (.rules rules) ("decodes", .array values)

theorem TableMember.reads_iff {member : String × Json} {result : TableMember} :
    Reads TableMember.reader member result ↔ result.Written member := by
  constructor
  · rintro ⟨read, known, accepted⟩
    obtain ⟨key, value⟩ := member
    simp only [TableMember.reader] at known accepted
    split at known
    · cases known
      simp only [map_eq_ok_iff, readText_eq_ok_iff] at accepted
      obtain ⟨text, rfl, rfl⟩ := accepted
      exact .moduleName text
    · cases known
      simp only [map_eq_ok_iff, readInteger_eq_ok_iff] at accepted
      obtain ⟨width, ⟨rfl, above, below⟩, rfl⟩ := accepted
      exact .width width above below
    · cases known
      simp only [map_eq_ok_iff, readOutput_eq_ok_iff] at accepted
      obtain ⟨schema, isRecord, rfl⟩ := accepted
      exact .output isRecord
    · cases known
      simp only [map_eq_ok_iff, readList_eq_ok_iff, readRule_eq_ok_iff] at accepted
      obtain ⟨rules, ⟨values, rfl, each⟩, rfl⟩ := accepted
      exact .rules each
    · cases known
  · rintro (text | ⟨width, above, below⟩ | isRecord | each)
    · exact ⟨_, rfl, rfl⟩
    · have read := readInteger_eq_ok_iff.mpr ⟨rfl, above, below⟩
      exact ⟨_, rfl, map_eq_ok_iff.mpr ⟨width, read, rfl⟩⟩
    · exact ⟨_, rfl, map_eq_ok_iff.mpr ⟨_, readOutput_eq_ok_iff.mpr isRecord, rfl⟩⟩
    · have read := readList_eq_ok_iff.mpr
        ⟨_, rfl, each.imp fun _ _ isRule => readRule_eq_ok_iff.mpr isRule⟩
      exact ⟨_, rfl, map_eq_ok_iff.mpr ⟨_, read, rfl⟩⟩

/-- Reading gives a draft exactly for the documents of the draft. -/
theorem readDraft_eq_ok_iff {draft : Draft} {value : Json} :
    readDraft value = .ok draft ↔ IsDocument draft value := by
  constructor
  · intro success
    simp only [readDraft, bind_eq_ok_iff, require_eq_ok_iff] at success
    obtain ⟨found, read, name, named, width, sized, output, typed, rules, listed, same⟩ := success
    obtain rfl := Except.ok.inj same
    obtain ⟨members, spelled, reads, distinct⟩ := readRecord_eq_ok_iff.mp read
    obtain ⟨_, first, written⟩ :=
      exists_written TableMember.moduleName (by rintro ⟨⟩ ⟨⟩; rfl) reads named
    cases TableMember.reads_iff.mp written
    obtain ⟨_, second, written⟩ :=
      exists_written TableMember.width (by rintro ⟨⟩ ⟨⟩; rfl) reads sized
    cases TableMember.reads_iff.mp written with | width _ above below =>
    obtain ⟨_, third, written⟩ :=
      exists_written TableMember.output (by rintro ⟨⟩ ⟨⟩; rfl) reads typed
    cases TableMember.reads_iff.mp written with | output schema =>
    obtain ⟨_, fourth, written⟩ :=
      exists_written TableMember.rules (by rintro ⟨⟩ ⟨⟩; rfl) reads listed
    cases TableMember.reads_iff.mp written with | rules each =>
    refine .record (spelled.isRecord distinct (List.prefix_refl _) (Nat.le_refl 4) ?_ ?_) above
      below schema each
    · intro member among
      obtain ⟨result, _, written⟩ := exists_of_forall₂ reads.flip among
      rcases TableMember.reads_iff.mp written <;> simp [draftMembers]
    · simp [draftMembers, first, second, third, fourth]
  · rintro @⟨output, rules, whole, above, below, schema, each⟩
    have reads : List.Forall₂ (Reads TableMember.reader) (draftMembers draft output rules)
        [.moduleName draft.moduleName, .width draft.width, .output draft.output,
          .rules draft.rules] :=
      .cons (TableMember.reads_iff.mpr (.moduleName _))
        (.cons (TableMember.reads_iff.mpr (.width _ above below))
          (.cons (TableMember.reads_iff.mpr (.output schema))
            (.cons (TableMember.reads_iff.mpr (.rules each)) .nil)))
    obtain ⟨found, order, read⟩ :=
      whole.readRecord .table (List.prefix_refl _) (Nat.le_refl 4) reads
    simp only [readDraft, bind_eq_ok_iff, require_eq_ok_iff]
    exact ⟨found, read, _, findSome?_of_perm order (Nat.le_refl 1), _,
      findSome?_of_perm order (Nat.le_refl 1), _, findSome?_of_perm order (Nat.le_refl 1), _,
      findSome?_of_perm order (Nat.le_refl 1), rfl⟩

end DecoderGen.Document
