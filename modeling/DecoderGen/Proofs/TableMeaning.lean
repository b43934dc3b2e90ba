import DecoderGen.Proofs.Representation
import Mathlib.Data.List.Nodup

/-! # What a decode table means

The meaning of a table is stated on its rows as they are written: the first enabled row whose
pattern text agrees with an input decides every output field, by the names it asserts. The logic
that the native backend makes of a resolved table evaluates to exactly that.
-/

namespace DecoderGen

/-- The row at a position decides an input: it is the first enabled one that matches. -/
structure Table.Decides (table : Table) (input : Input) (position : Nat) (rule : Rule) : Prop where
  listed : table.rules[position]? = some rule
  enabled : rule.enabled = true
  agrees : rule.Matches input
  first : ∀ earlier < position, ∀ other, table.rules[earlier]? = some other →
    other.enabled = true → ¬ other.Matches input

theorem Table.ofDraft_eq_ok_iff (draft : Draft) (table : Table) :
    ofDraft draft = .ok table ↔ table.toDraft = draft := by
  constructor
  · intro success
    unfold ofDraft at success
    split at success
    · cases success
    · cases success
      rfl
  · rintro rfl
    have sound := table.toDraft.fault?_eq_none_iff.mpr table.wellFormed
    unfold ofDraft
    split
    · next fault found => rw [sound] at found; cases found
    · rfl

theorem Table.resolve_eq_ok_iff (table : Table) (resolved : Resolved) :
    table.resolve = .ok resolved ↔ resolved.table = table := by
  constructor
  · intro success
    unfold Table.resolve at success
    split at success
    · cases success
      rfl
    · cases success
  · rintro rfl
    unfold Table.resolve
    split
    · rfl
    · next fault rest found => rw [resolved.noFaults] at found; cases found

/-- With distinct fields, a name is located at the one position that declares it. -/
theorem Schema.fieldIndex?_eq_some_iff {schema : Schema} (distinct : schema.fields.Nodup)
    (name : String) (field : Nat) :
    schema.fieldIndex? name = some field ↔ schema.fields[field]? = some name := by
  refine ⟨Schema.getElem?_of_fieldIndex?, fun declared => ?_⟩
  obtain ⟨bound, here⟩ := List.getElem?_eq_some_iff.mp declared
  refine List.findIdx?_eq_some_iff_getElem.mpr ⟨bound, beq_iff_eq.mpr here, ?_⟩
  intro earlier before same
  have equal : schema.fields[earlier] = schema.fields[field] := (beq_iff_eq.mp same).trans here.symm
  exact absurd ((List.Nodup.getElem_inj_iff distinct).mp equal) (Nat.ne_of_lt before)

namespace Resolved

/-- Locating the asserted names of a row keeps exactly the fields it names. -/
theorem mem_resolve_fields_iff (resolved : Resolved) (row : Rule) (position : Nat) {field : Nat}
    {name : String} (declared : resolved.table.output.fields[field]? = some name) :
    field ∈ (row.resolve resolved.table.output position).fields ↔ name ∈ row.asserted := by
  have located := Schema.fieldIndex?_eq_some_iff resolved.table.wellFormed.fields_nodup
  simp only [Rule.resolve, List.mem_filterMap, located]
  constructor
  · rintro ⟨other, asserted, there⟩
    rw [declared] at there
    exact Option.some.inj there ▸ asserted
  · intro asserted
    exact ⟨name, asserted, declared⟩

theorem accepts_iff_matches (resolved : Resolved) {position : Nat} {row : Rule} (input : Input)
    (listed : resolved.table.rules[position]? = some row) :
    (row.resolve resolved.table.output position).pattern.accepts input = true ↔
      row.Matches input :=
  Rule.resolve_accepts_iff position input
    (resolved.badSymbols_eq_nil (List.mem_of_getElem? listed))

/-- The search through the enabled rules stops at the row that decides the input. -/
theorem find?_enabledRules_eq_some_iff (resolved : Resolved) (input : Input)
    (rule : ResolvedRule) :
    resolved.enabledRules.find? (·.pattern.accepts input) = some rule ↔
      ∃ position row, resolved.table.Decides input position row ∧
        rule = row.resolve resolved.table.output position := by
  -- The filter is folded into the search, so that positions are those of the table.
  rw [enabledRules, List.find?_filter, List.find?_eq_some_iff_getElem]
  simp only [rules, List.length_mapIdx, List.getElem_mapIdx, Bool.not_eq_true',
    decide_eq_true_eq, decide_eq_false_iff_not, not_and]
  constructor
  · rintro ⟨⟨enabled, accepted⟩, position, bound, rfl, before⟩
    have listed := List.getElem?_eq_getElem bound
    refine ⟨position, _, ⟨listed, enabled, ?_, ?_⟩, rfl⟩
    · exact (resolved.accepts_iff_matches input listed).mp accepted
    · intro earlier smaller other there active agrees
      obtain ⟨_, rfl⟩ := List.getElem?_eq_some_iff.mp there
      exact before earlier smaller active ((resolved.accepts_iff_matches input there).mpr agrees)
  · rintro ⟨position, row, decides, rfl⟩
    obtain ⟨bound, rfl⟩ := List.getElem?_eq_some_iff.mp decides.listed
    refine ⟨⟨decides.enabled, (resolved.accepts_iff_matches input decides.listed).mpr decides.agrees⟩,
      position, bound, rfl, ?_⟩
    intro earlier smaller active accepted
    have there := List.getElem?_eq_getElem (Nat.lt_trans smaller bound)
    exact decides.first earlier smaller _ there active
      ((resolved.accepts_iff_matches input there).mp accepted)

theorem firstMatch?_eq_some_iff (resolved : Resolved) (input : Input) (guard : Guard) :
    resolved.nativeLogic.firstMatch? input = some guard ↔
      ∃ position row, resolved.table.Decides input position row ∧
        guard = (row.resolve resolved.table.output position).guard := by
  have search : resolved.nativeLogic.firstMatch? input =
      (resolved.enabledRules.find? (·.pattern.accepts input)).map ResolvedRule.guard :=
    List.find?_map
  rw [search, Option.map_eq_some_iff]
  simp only [find?_enabledRules_eq_some_iff]
  constructor
  · rintro ⟨_, ⟨position, row, decides, rfl⟩, rfl⟩
    exact ⟨position, row, decides, rfl⟩
  · rintro ⟨position, row, decides, rfl⟩
    exact ⟨_, ⟨position, row, decides, rfl⟩, rfl⟩

/-- A field is set exactly when the deciding row asserts its name. -/
theorem evaluate_eq_true_iff_decides (resolved : Resolved) (input : Input) {field : Nat}
    {name : String} (declared : resolved.table.output.fields[field]? = some name) :
    (resolved.nativeLogic.evaluate input)[field]? = some true ↔
      ∃ position row, resolved.table.Decides input position row ∧ name ∈ row.asserted := by
  have bound : field < resolved.nativeLogic.fieldCount :=
    (List.getElem?_eq_some_iff.mp declared).1
  rw [Logic.evaluate_getElem?_eq_true_iff _ _ bound]
  simp only [firstMatch?_eq_some_iff]
  constructor
  · rintro ⟨_, ⟨position, row, decides, rfl⟩, asserted⟩
    have member : field ∈ (row.resolve resolved.table.output position).fields := by
      simpa [ResolvedRule.guard] using asserted
    exact ⟨position, row, decides, (resolved.mem_resolve_fields_iff row position declared).mp member⟩
  · rintro ⟨position, row, decides, asserted⟩
    have member := (resolved.mem_resolve_fields_iff row position declared).mpr asserted
    exact ⟨_, ⟨position, row, decides, rfl⟩, by simpa [ResolvedRule.guard] using member⟩

/-- The outputs for an input are those of the fields that the deciding row asserts. -/
theorem evaluate_eq_of_asserted {resolved other : Resolved}
    (fields : other.table.output.fields = resolved.table.output.fields) {input : Input}
    (same : ∀ name,
      (∃ position row, other.table.Decides input position row ∧ name ∈ row.asserted) ↔
        ∃ position row, resolved.table.Decides input position row ∧ name ∈ row.asserted) :
    other.nativeLogic.evaluate input = resolved.nativeLogic.evaluate input := by
  apply eq_of_getElem?_eq_true_iff
  · rw [Logic.evaluate_length, Logic.evaluate_length]
    exact congrArg List.length fields
  · intro field bound
    rw [Logic.evaluate_length] at bound
    obtain ⟨name, declared⟩ : ∃ name, other.table.output.fields[field]? = some name :=
      ⟨_, List.getElem?_eq_getElem bound⟩
    rw [other.evaluate_eq_true_iff_decides input declared, same,
      resolved.evaluate_eq_true_iff_decides input (fields ▸ declared)]

end Resolved

/-- The native logic of every accepted table implements its rows: one value per field, set exactly
when the first enabled row that matches asserts the field, and all clear without such a row. -/
theorem Table.native_evaluate_iff_decides (table : Table) (resolved : Resolved)
    (accepted : table.resolve = .ok resolved) :
    ∃ logic, Backend.native.compile resolved = .ok logic ∧ ∀ input,
      (logic.evaluate input).length = table.output.fields.length ∧
      (∀ (field : Nat) (name : String), table.output.fields[field]? = some name →
        ((logic.evaluate input)[field]? = some true ↔
          ∃ position rule, table.Decides input position rule ∧ name ∈ rule.asserted)) ∧
      ((∀ rule ∈ table.rules, rule.enabled = true → ¬ rule.Matches input) →
        ∀ value ∈ logic.evaluate input, value = false) := by
  obtain rfl := (table.resolve_eq_ok_iff resolved).mp accepted
  refine ⟨_, Backend.compile_native resolved, fun input => ⟨?_, ?_, ?_⟩⟩
  · exact Logic.evaluate_length _ _
  · intro field name declared
    exact resolved.evaluate_eq_true_iff_decides input declared
  · intro unmatched value member
    obtain ⟨field, there⟩ := List.mem_iff_getElem?.mp member
    have bound : field < resolved.table.output.fields.length := by
      have inside := (List.getElem?_eq_some_iff.mp there).1
      rwa [Logic.evaluate_length] at inside
    cases value with
    | false => rfl
    | true =>
      obtain ⟨position, row, decides, _⟩ :=
        (resolved.evaluate_eq_true_iff_decides input (List.getElem?_eq_getElem bound)).mp there
      exact absurd decides.agrees
        (unmatched row (List.mem_of_getElem? decides.listed) decides.enabled)

/-- Overlapping rows, one of them switched off and one that names a field twice. -/
def layeredDraft : Draft where
  moduleName := "dec"
  width := 2
  output := ⟨"ctrl_t", ["load", "store"]⟩
  rules :=
    [⟨"off", "..", ["load"], false⟩,
      ⟨"narrow", "11", ["store", "store"], true⟩,
      ⟨"wide", "1.", ["store", "load"], true⟩]

/-- The layered rows as a table. -/
def layered : Table := ⟨layeredDraft, layeredDraft.fault?_eq_none_iff.mp (by decide +kernel)⟩

/-- The layered table with its patterns read and its fields located. -/
def layeredResolved : Resolved := ⟨layered, by decide +kernel⟩

/-- The layered table is accepted, and its `load` field follows the deciding row on every input. -/
theorem layered_native_evaluate :
    layered.resolve = .ok layeredResolved ∧
    ∃ logic, Backend.native.compile layeredResolved = .ok logic ∧
      ∀ input, (logic.evaluate input).length = 2 ∧
        ((logic.evaluate input)[0]? = some true ↔
          ∃ position rule, layered.Decides input position rule ∧ "load" ∈ rule.asserted) := by
  have accepted : layered.resolve = .ok layeredResolved :=
    (layered.resolve_eq_ok_iff layeredResolved).mpr rfl
  obtain ⟨logic, compiled, meaning⟩ :=
    Table.native_evaluate_iff_decides layered layeredResolved accepted
  exact ⟨accepted, logic, compiled, fun input => ⟨(meaning input).1, (meaning input).2.1 0 "load" rfl⟩⟩

end DecoderGen
