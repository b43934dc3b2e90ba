import DecoderGen.Proofs.TableMeaning

/-! # The guards of the native backend

The native backend never finds a defect in its own logic. Its guards stand for the enabled rows of
the table one by one, and each keeps the name, the place, the written pattern and the set of
asserted fields of its row. Since all positions of asserted fields are in range, evaluation never
writes outside of the output: it agrees with an evaluation in which such a write is a failure.
-/

namespace DecoderGen

/-- The enabled rows with their places in the whole table, in table order. -/
def Table.enabledRows (table : Table) : List (Rule × Nat) :=
  table.rules.zipIdx.filter (·.1.enabled)

theorem Table.mem_enabledRows_iff (table : Table) (row : Rule × Nat) :
    row ∈ table.enabledRows ↔ table.rules[row.2]? = some row.1 ∧ row.1.enabled = true := by
  rw [enabledRows, List.mem_filter, List.mem_zipIdx_iff_getElem?]

/-- What a guard keeps of the row it was made of. -/
structure Guard.Represents (schema : Schema) (guard : Guard) (row : Rule × Nat) : Prop where
  name : guard.name = row.1.name
  position : guard.position = row.2
  pattern : guard.pattern.text = row.1.pattern
  declared : ∀ name ∈ row.1.asserted, name ∈ schema.fields
  asserted : ∀ field, field ∈ guard.asserted ↔
    ∃ name ∈ row.1.asserted, schema.fields[field]? = some name

namespace Logic

/-- Set the bit at a position, which has to be inside. -/
def setBit? (bits : List Bool) (position : Nat) : Option (List Bool) :=
  if position < bits.length then some (bits.set position true) else none

/-- The output fields for an input, unless a write misses the output. -/
def evaluate? (logic : Logic) (input : Input) : Option (List Bool) :=
  let cleared := List.replicate logic.fieldCount false
  match logic.firstMatch? input with
  | some guard => guard.asserted.toList.foldlM setBit? cleared
  | none => some cleared

theorem foldlM_setBit? {positions : List Nat} {bits : List Bool}
    (inside : ∀ position ∈ positions, position < bits.length) :
    positions.foldlM setBit? bits = some (setBits positions bits) := by
  induction positions generalizing bits with
  | nil => rfl
  | cons position rest ih =>
    have here : position < bits.length := inside position (List.mem_cons_self ..)
    have later : ∀ other ∈ rest, other < (bits.set position true).length := by
      intro other member
      rw [List.length_set]
      exact inside other (List.mem_cons_of_mem _ member)
    rw [List.foldlM_cons, setBit?, if_pos here]
    exact ih later

/-- Guards in range write inside the output, whatever the input. -/
theorem evaluate?_eq_some {logic : Logic} (sound : ∀ guard ∈ logic.guards, guard.WellFormed logic)
    (input : Input) : logic.evaluate? input = some (logic.evaluate input) := by
  unfold evaluate? evaluate
  cases found : logic.firstMatch? input with
  | none => rfl
  | some guard =>
    apply foldlM_setBit?
    intro position member
    rw [List.length_replicate]
    exact (sound guard (List.mem_of_find?_eq_some found)).inRange position (by simpa using member)

end Logic

namespace Resolved

theorem enabledRules_eq_map (resolved : Resolved) :
    resolved.enabledRules =
      resolved.table.enabledRows.map fun row => row.1.resolve resolved.table.output row.2 := by
  rw [enabledRules, rules, List.mapIdx_eq_zipIdx_map, List.filter_map]
  rfl

theorem guards_eq_map (resolved : Resolved) :
    resolved.guards = resolved.table.enabledRows.map fun row =>
      (row.1.resolve resolved.table.output row.2).guard := by
  rw [guards, enabledRules_eq_map, List.map_map]
  rfl

/-- Every field that a row asserts is declared. -/
theorem mem_fields_of_asserted (resolved : Resolved) {row : Rule}
    (member : row ∈ resolved.table.rules) {name : String} (asserted : name ∈ row.asserted) :
    name ∈ resolved.table.output.fields := by
  have clean := List.flatMap_eq_nil_iff.mp resolved.noFaults row member
  have located := List.filter_eq_nil_iff.mp
    (List.map_eq_nil_iff.mp (List.append_eq_nil_iff.mp clean).2) name asserted
  obtain ⟨field, found⟩ := Option.ne_none_iff_exists'.mp (by simpa using located)
  exact List.mem_of_getElem? (Schema.getElem?_of_fieldIndex? found)

/-- The guard of an enabled row keeps what the row says. -/
theorem represents_guard (resolved : Resolved) {row : Rule × Nat}
    (member : row ∈ resolved.table.enabledRows) :
    (row.1.resolve resolved.table.output row.2).guard.Represents resolved.table.output row := by
  obtain ⟨listed, _⟩ := (resolved.table.mem_enabledRows_iff row).mp member
  have present := List.mem_of_getElem? listed
  refine ⟨rfl, rfl, resolved.text_ofSymbols present,
    fun name => resolved.mem_fields_of_asserted present, fun field => ?_⟩
  have located := Schema.fieldIndex?_eq_some_iff resolved.table.wellFormed.fields_nodup
  simp [ResolvedRule.guard, Rule.resolve, located]

theorem guards_represent (resolved : Resolved) :
    List.Forall₂ (Guard.Represents resolved.table.output) resolved.guards
      resolved.table.enabledRows := by
  rw [guards, enabledRules_eq_map, List.map_map, List.forall₂_map_left_iff, List.forall₂_same]
  intro row member
  exact resolved.represents_guard member

end Resolved

/-- The native backend compiles every accepted table. The sizes are those of the table, the guards
stand for its enabled rows in table order and are well formed, and evaluating them never leaves the
output. -/
theorem Table.native_compile_represents (table : Table) (resolved : Resolved)
    (accepted : table.resolve = .ok resolved) :
    ∃ logic, Backend.native.compile resolved = .ok logic ∧
      0 < table.inputWidth ∧ logic.inputWidth = table.inputWidth ∧
      logic.fieldCount = table.output.fields.length ∧
      List.Forall₂ (Guard.Represents table.output) logic.guards table.enabledRows ∧
      logic.guards.Pairwise (fun earlier later => earlier.position < later.position) ∧
      (∀ guard ∈ logic.guards, guard.WellFormed logic) ∧
      ∀ input, logic.evaluate? input = some (logic.evaluate input) := by
  obtain rfl := (table.resolve_eq_ok_iff resolved).mp accepted
  obtain ⟨sound, ordered⟩ := (Logic.fault?_eq_none_iff _).mp resolved.nativeLogic_fault?
  exact ⟨_, Backend.compile_native resolved, resolved.table.inputWidth_pos, rfl, rfl,
    resolved.guards_represent, ordered, sound, Logic.evaluate?_eq_some sound⟩

/-- The layered table gives two guards, which keep their places behind the row switched off. -/
theorem layered_native_represents :
    layered.resolve = .ok layeredResolved ∧
    ∃ logic, Backend.native.compile layeredResolved = .ok logic ∧
      List.Forall₂ (Guard.Represents layered.output) logic.guards
        [(⟨"narrow", "11", ["store", "store"], true⟩, 1),
          (⟨"wide", "1.", ["store", "load"], true⟩, 2)] ∧
      ∀ input, logic.evaluate? input = some (logic.evaluate input) := by
  have accepted : layered.resolve = .ok layeredResolved :=
    (layered.resolve_eq_ok_iff layeredResolved).mpr rfl
  obtain ⟨logic, compiled, _, _, _, rows, _, _, inside⟩ :=
    Table.native_compile_represents layered layeredResolved accepted
  exact ⟨accepted, logic, compiled, rows, inside⟩

end DecoderGen
