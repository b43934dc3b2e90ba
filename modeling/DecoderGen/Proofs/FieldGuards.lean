import DecoderGen.Proofs.NativeGuards

/-! # The guards of one output field

The logic of a table can be read field by field: the guards of a field are those that assert it.
Each guard is searched for the field by halving its ascending positions, and the guards found stand
for the enabled rows that name the field, in whatever order and however often a row does so.
Reading the logic by field agrees with evaluating it: a field is set exactly when the guard that
decides the input is one of the field's guards.
-/

namespace DecoderGen

/-- Whether a row names the field at a position of the output. No row names a field behind the last
one. -/
def Rule.assertsField (schema : Schema) (field : Nat) (rule : Rule) : Bool :=
  schema.fields[field]?.any (· ∈ rule.asserted)

theorem Rule.assertsField_eq_true_iff (schema : Schema) (field : Nat) (rule : Rule) :
    rule.assertsField schema field = true ↔
      ∃ name ∈ rule.asserted, schema.fields[field]? = some name := by
  simp only [assertsField, Option.any_eq_true, decide_eq_true_eq]
  exact exists_congr fun name => and_comm

/-- The search among the fields of a guard finds exactly those that its row names. -/
theorem Guard.Represents.asserts_eq {schema : Schema} {guard : Guard} {row : Rule × Nat}
    (represents : guard.Represents schema row)
    (sorted : guard.asserted.toList.Pairwise (· < ·)) (field : Nat) :
    guard.asserts field = row.1.assertsField schema field := by
  rw [Bool.eq_iff_iff, Guard.asserts_iff_mem sorted, represents.asserted,
    Rule.assertsField_eq_true_iff]

/-- A field is set exactly when the deciding guard is one of the field's guards. -/
theorem Logic.evaluate_eq_true_iff_mem_guardsFor {logic : Logic}
    (sound : ∀ guard ∈ logic.guards, guard.WellFormed logic) (input : Input) {field : Nat}
    (bound : field < logic.fieldCount) :
    (logic.evaluate input)[field]? = some true ↔
      ∃ guard ∈ logic.guardsFor field, logic.firstMatch? input = some guard := by
  have searched : ∀ guard ∈ logic.guards, guard.asserts field = true ↔ field ∈ guard.asserted :=
    fun guard member => Guard.asserts_iff_mem (sound guard member).ascending field
  rw [logic.evaluate_getElem?_eq_true_iff input bound]
  simp only [guardsFor, List.mem_filter]
  refine exists_congr fun guard => ⟨?_, ?_⟩
  · rintro ⟨found, asserted⟩
    have member := List.mem_of_find?_eq_some found
    exact ⟨⟨member, (searched guard member).mpr asserted⟩, found⟩
  · rintro ⟨⟨member, asserts⟩, found⟩
    exact ⟨found, (searched guard member).mp asserts⟩

namespace Resolved

variable (resolved : Resolved) (field : Nat)

/-- A guard asserts the fields that its row names. -/
theorem asserts_guard_eq {row : Rule × Nat} (enabled : row ∈ resolved.table.enabledRows) :
    (row.1.resolve resolved.table.output row.2).guard.asserts field =
      row.1.assertsField resolved.table.output field :=
  (resolved.represents_guard enabled).asserts_eq (ascending_pairwise _) field

theorem guardsFor_eq_filter :
    resolved.nativeLogic.guardsFor field =
      resolved.guards.filter fun guard => resolved.table.rules[guard.position]?.any
        (Rule.assertsField resolved.table.output field) := by
  refine List.filter_congr fun guard (member : guard ∈ resolved.guards) => ?_
  rw [guards_eq_map] at member
  obtain ⟨row, enabled, rfl⟩ := List.mem_map.mp member
  obtain ⟨listed, _⟩ := (resolved.table.mem_enabledRows_iff row).mp enabled
  change _ = resolved.table.rules[row.2]?.any _
  rw [resolved.asserts_guard_eq field enabled, listed, Option.any_some]

theorem guardsFor_represent :
    List.Forall₂ (Guard.Represents resolved.table.output) (resolved.nativeLogic.guardsFor field)
      (resolved.table.enabledRows.filter (·.1.assertsField resolved.table.output field)) := by
  have rows : resolved.nativeLogic.guardsFor field =
      (resolved.table.enabledRows.filter (·.1.assertsField resolved.table.output field)).map
        fun row => (row.1.resolve resolved.table.output row.2).guard := by
    change resolved.guards.filter _ = _
    rw [guards_eq_map, List.filter_map]
    exact congrArg _ (List.filter_congr fun row enabled => resolved.asserts_guard_eq field enabled)
  rw [rows, List.forall₂_map_left_iff, List.forall₂_same]
  intro row member
  exact resolved.represents_guard (List.mem_filter.mp member).1

end Resolved

/-- For every accepted table and every position of a field, the guards of the field are those whose
source row names it, in order of priority; they stand for the enabled rows that name it, and behind
the last field there are none. A declared field is set exactly when the first guard that matches is
one of them. -/
theorem Table.field_guards_agree (table : Table) (resolved : Resolved)
    (accepted : table.resolve = .ok resolved) :
    ∃ logic, Backend.native.compile resolved = .ok logic ∧ ∀ field,
      (logic.guardsFor field = logic.guards.filter fun guard =>
        table.rules[guard.position]?.any (Rule.assertsField table.output field)) ∧
      List.Forall₂ (Guard.Represents table.output) (logic.guardsFor field)
        (table.enabledRows.filter (·.1.assertsField table.output field)) ∧
      (table.output.fields.length ≤ field → logic.guardsFor field = []) ∧
      (field < table.output.fields.length → ∀ input,
        ((logic.evaluate input)[field]? = some true ↔
          ∃ guard ∈ logic.guardsFor field, logic.firstMatch? input = some guard)) := by
  obtain rfl := (table.resolve_eq_ok_iff resolved).mp accepted
  refine ⟨_, Backend.compile_native resolved, fun field => ⟨resolved.guardsFor_eq_filter field,
    resolved.guardsFor_represent field, fun behind => ?_, fun declared input => ?_⟩⟩
  · rw [resolved.guardsFor_eq_filter field, List.filter_eq_nil_iff]
    intro guard _ named
    obtain ⟨row, _, asserts⟩ := (Option.any_eq_true _ _).mp named
    obtain ⟨name, _, declared⟩ := (Rule.assertsField_eq_true_iff _ _ _).mp asserts
    rw [List.getElem?_eq_none behind] at declared
    cases declared
  · exact Logic.evaluate_eq_true_iff_mem_guardsFor
      (fun guard member => resolved.guard_wellFormed member) input declared

/-- Both guards of the layered table assert `store`, which one row names twice; only the second one
asserts `load`, and there is no third field. -/
theorem layered_field_guards :
    layered.resolve = .ok layeredResolved ∧
    ∃ logic, Backend.native.compile layeredResolved = .ok logic ∧
      (logic.guardsFor 0).map (·.name) = ["wide"] ∧
      (logic.guardsFor 1).map (·.name) = ["narrow", "wide"] ∧ logic.guardsFor 2 = [] ∧
      ∀ input, (logic.evaluate input)[0]? = some true ↔
        ∃ guard ∈ logic.guardsFor 0, logic.firstMatch? input = some guard := by
  have accepted : layered.resolve = .ok layeredResolved :=
    (layered.resolve_eq_ok_iff layeredResolved).mpr rfl
  obtain ⟨logic, compiled, fields⟩ := Table.field_guards_agree layered layeredResolved accepted
  obtain rfl := Except.ok.inj ((Backend.compile_native layeredResolved).symm.trans compiled)
  exact ⟨accepted, _, compiled, by decide +kernel, by decide +kernel,
    (fields 2).2.2.1 (by decide), (fields 0).2.2.2 (by decide)⟩

end DecoderGen
