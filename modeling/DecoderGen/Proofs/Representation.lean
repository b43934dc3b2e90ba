import DecoderGen.Logic
import DecoderGen.Proofs.PatternMeaning

/-! # The representation of match logic

The check of match logic is a conjunction of facts about each guard and about the order of guards.
The native backend establishes all of them for every resolved table, so it always yields logic: one
guard per enabled rule, with the located fields in ascending order.
-/

namespace DecoderGen

theorem mem_insertPosition (position other : Nat) (positions : List Nat) :
    other ∈ insertPosition position positions ↔ other = position ∨ other ∈ positions := by
  induction positions with
  | nil => simp [insertPosition]
  | cons first rest ih =>
    rw [insertPosition]
    split_ifs with smaller same
    · simp
    · simp [same]
    · simp only [List.mem_cons, ih]
      tauto

theorem insertPosition_pairwise {position : Nat} {positions : List Nat}
    (sorted : positions.Pairwise (· < ·)) :
    (insertPosition position positions).Pairwise (· < ·) := by
  induction positions with
  | nil => simp [insertPosition]
  | cons first rest ih =>
    obtain ⟨above, tail⟩ := List.pairwise_cons.mp sorted
    rw [insertPosition]
    split_ifs with smaller same
    · refine List.pairwise_cons.mpr ⟨fun other member => ?_, sorted⟩
      rcases List.mem_cons.mp member with rfl | later
      · exact smaller
      · exact Nat.lt_trans smaller (above other later)
    · exact sorted
    · refine List.pairwise_cons.mpr ⟨fun other member => ?_, ih tail⟩
      rcases (mem_insertPosition position other rest).mp member with rfl | later
      · omega
      · exact above other later

@[simp] theorem mem_ascending (position : Nat) (positions : List Nat) :
    position ∈ ascending positions ↔ position ∈ positions := by
  induction positions with
  | nil => simp [ascending]
  | cons first rest ih =>
    change position ∈ insertPosition first (ascending rest) ↔ _
    rw [mem_insertPosition, ih, List.mem_cons]

theorem ascending_pairwise (positions : List Nat) : (ascending positions).Pairwise (· < ·) := by
  induction positions with
  | nil => exact .nil
  | cons first rest ih => exact insertPosition_pairwise ih

/-- What the representation of match logic asks of one guard. -/
structure Guard.WellFormed (guard : Guard) (logic : Logic) : Prop where
  pattern_ne_nil : guard.pattern.bits ≠ []
  width : guard.pattern.width = logic.inputWidth
  inRange : ∀ field ∈ guard.asserted, field < logic.fieldCount
  ascending : guard.asserted.toList.Pairwise (· < ·)

/-- On ascending positions the search for an asserted field is membership. -/
theorem Guard.asserts_iff_mem {guard : Guard} (sorted : guard.asserted.toList.Pairwise (· < ·))
    (field : Nat) : guard.asserts field = true ↔ field ∈ guard.asserted := by
  have keys : Bisection.Ascending guard.asserted := by
    simpa only [Bisection.Ascending, Nat.compare_eq_lt] using sorted
  exact Bisection.contains_eq_true_iff keys field

/-- Two outputs of one width are equal when they set the same fields. -/
theorem eq_of_getElem?_eq_true_iff {left right : List Bool} (width : left.length = right.length)
    (same : ∀ field < left.length, left[field]? = some true ↔ right[field]? = some true) :
    left = right := by
  apply List.ext_getElem width
  intro field bound otherBound
  have agree := same field bound
  rw [List.getElem?_eq_getElem bound, List.getElem?_eq_getElem otherBound] at agree
  rw [Bool.eq_iff_iff]
  simpa only [Option.some.injEq] using agree

namespace Logic

theorem guardFault?_eq_none_iff (logic : Logic) (last : Option Nat) (guard : Guard) :
    logic.guardFault? last guard = none ↔
      guard.WellFormed logic ∧ ∀ place ∈ last, place < guard.position := by
  have order : Bisection.ascends guard.asserted.toList = true ↔
      guard.asserted.toList.Pairwise (· < ·) := by
    simp only [Bisection.ascends_eq_true_iff, Nat.compare_eq_lt]
  have range : guard.asserted.find? (logic.fieldCount ≤ ·) = none ↔
      ∀ field ∈ guard.asserted, field < logic.fieldCount := by simp
  have later : last.any (guard.position ≤ ·) = false ↔ ∀ place ∈ last, place < guard.position := by
    cases last <;> simp
  rw [guardFault?, ← later]
  split
  case isTrue empty => exact iff_of_false (by simp) fun sound => sound.1.pattern_ne_nil empty
  case isFalse nonempty =>
    split
    case isTrue narrow => exact iff_of_false (by simp) fun sound => narrow sound.1.width
    case isFalse wide =>
      split
      · next field found =>
        refine iff_of_false (by simp) fun sound => ?_
        rw [range.mpr sound.1.inRange] at found
        cases found
      · next inRange =>
        split_ifs with unordered early
        · exact iff_of_false (by simp) fun sound => by simp [order.mpr sound.1.ascending] at unordered
        · exact iff_of_false (by simp) fun sound => by simp [early] at sound
        · have sorted := order.mp (by simpa using unordered)
          exact iff_of_true rfl
            ⟨⟨nonempty, not_not.mp wide, range.mp inRange, sorted⟩, by simpa using early⟩

theorem guardsFault?_eq_none_iff (logic : Logic) (last : Option Nat) (guards : List Guard) :
    logic.guardsFault? last guards = none ↔
      (∀ guard ∈ guards, guard.WellFormed logic) ∧
        guards.Pairwise (fun earlier later => earlier.position < later.position) ∧
          ∀ place ∈ last, ∀ guard ∈ guards, place < guard.position := by
  induction guards generalizing last with
  | nil => simp [guardsFault?]
  | cons guard rest ih =>
    simp only [guardsFault?, Option.or_eq_none_iff, guardFault?_eq_none_iff, ih, List.mem_cons,
      forall_eq_or_imp, List.pairwise_cons, Option.mem_def, Option.some.injEq, forall_eq']
    constructor
    · rintro ⟨⟨formed, first⟩, others, ordered, above⟩
      exact ⟨⟨formed, others⟩, ⟨above, ordered⟩, fun place there =>
        ⟨first place there, fun other member => Nat.lt_trans (first place there) (above other member)⟩⟩
    · rintro ⟨⟨formed, others⟩, ⟨above, ordered⟩, first⟩
      exact ⟨⟨formed, fun place there => (first place there).1⟩, others, ordered, above⟩

/-- The check passes exactly on logic whose guards are well formed and in table order. -/
theorem fault?_eq_none_iff (logic : Logic) :
    logic.fault? = none ↔ (∀ guard ∈ logic.guards, guard.WellFormed logic) ∧
      logic.guards.Pairwise (fun earlier later => earlier.position < later.position) := by
  simp [fault?, guardsFault?_eq_none_iff]

@[simp] theorem setBits_length (positions : List Nat) (bits : List Bool) :
    (setBits positions bits).length = bits.length := by
  induction positions generalizing bits with
  | nil => rfl
  | cons position rest ih =>
    change (setBits rest (bits.set position true)).length = _
    rw [ih, List.length_set]

theorem setBits_getElem? (positions : List Nat) (bits : List Bool) (field : Nat)
    (bound : field < bits.length) :
    (setBits positions bits)[field]? = if field ∈ positions then some true else bits[field]? := by
  induction positions generalizing bits with
  | nil => simp [setBits]
  | cons position rest ih =>
    change (setBits rest (bits.set position true))[field]? = _
    rw [ih _ (by simpa using bound), List.getElem?_set]
    by_cases here : position = field
    · simp [here, bound]
    · simp [here, Ne.symm here]

/-- Every evaluation gives one value per field. -/
@[simp] theorem evaluate_length (logic : Logic) (input : Input) :
    (logic.evaluate input).length = logic.fieldCount := by
  rw [evaluate]
  split <;> simp

/-- A field is set exactly when the deciding guard asserts it. -/
theorem evaluate_getElem?_eq_true_iff (logic : Logic) (input : Input) {field : Nat}
    (bound : field < logic.fieldCount) :
    (logic.evaluate input)[field]? = some true ↔
      ∃ guard, logic.firstMatch? input = some guard ∧ field ∈ guard.asserted := by
  rw [evaluate]
  cases logic.firstMatch? input with
  | none => simp [bound]
  | some guard =>
    simp only [Option.some.injEq, exists_eq_left']
    rw [setBits_getElem? _ _ _ (by simpa using bound)]
    by_cases asserted : field ∈ guard.asserted <;> simp [asserted, bound]

end Logic

/-- The position found for a field is one at which the schema declares it. -/
theorem Schema.getElem?_of_fieldIndex? {schema : Schema} {name : String} {field : Nat}
    (found : schema.fieldIndex? name = some field) : schema.fields[field]? = some name := by
  obtain ⟨bound, same, _⟩ := List.findIdx?_eq_some_iff_getElem.mp found
  rw [List.getElem?_eq_getElem bound, beq_iff_eq.mp same]

namespace Resolved

theorem badSymbols_eq_nil (resolved : Resolved) {rule : Rule} (member : rule ∈ resolved.table.rules) :
    Pattern.badSymbols 0 rule.pattern.toList = [] := by
  have clean := List.flatMap_eq_nil_iff.mp resolved.noFaults rule member
  simpa using (List.append_eq_nil_iff.mp clean).1

/-- The pattern of a row is read without loss. -/
theorem text_ofSymbols (resolved : Resolved) {row : Rule} (member : row ∈ resolved.table.rules) :
    (Pattern.ofSymbols row.pattern.toList).text = row.pattern := by
  apply String.toList_injective
  rw [Pattern.text_toList]
  exact Pattern.map_symbol_of_badSymbols_eq_nil (resolved.badSymbols_eq_nil member)

/-- The enabled rules are the resolved forms of the enabled rows, each with its own position. -/
theorem mem_enabledRules_iff (resolved : Resolved) (rule : ResolvedRule) :
    rule ∈ resolved.enabledRules ↔
      ∃ (position : Nat) (row : Rule), resolved.table.rules[position]? = some row ∧
        row.enabled = true ∧ rule = row.resolve resolved.table.output position := by
  rw [enabledRules, List.mem_filter, rules, List.mem_iff_getElem?]
  simp only [List.getElem?_mapIdx, Option.map_eq_some_iff]
  constructor
  · rintro ⟨⟨position, row, listed, rfl⟩, enabled⟩
    exact ⟨position, row, listed, enabled, rfl⟩
  · rintro ⟨position, row, listed, enabled, rfl⟩
    exact ⟨⟨position, row, listed, rfl⟩, enabled⟩

theorem map_rule_enabledRules (resolved : Resolved) :
    resolved.enabledRules.map (·.rule) = resolved.table.rules.filter (·.enabled) := by
  have rows : resolved.rules.map (·.rule) = resolved.table.rules := by
    apply List.ext_getElem?
    intro position
    simp [rules, Rule.resolve, Function.comp_def]
  conv_rhs => rw [← rows, List.filter_map]
  rfl

theorem enabledRules_pairwise (resolved : Resolved) :
    resolved.enabledRules.Pairwise (fun earlier later => earlier.position < later.position) := by
  apply List.Pairwise.filter
  rw [rules, List.pairwise_iff_getElem]
  intro first second firstBound secondBound before
  simpa [Rule.resolve] using before

theorem guard_wellFormed (resolved : Resolved) {guard : Guard} (member : guard ∈ resolved.guards) :
    guard.WellFormed resolved.nativeLogic := by
  obtain ⟨rule, enabled, rfl⟩ := List.mem_map.mp member
  obtain ⟨position, row, listed, _, rfl⟩ := (resolved.mem_enabledRules_iff rule).mp enabled
  have present := List.mem_of_getElem? listed
  have symbols := Pattern.map_symbol_of_badSymbols_eq_nil (resolved.badSymbols_eq_nil present)
  have width : (Pattern.ofSymbols row.pattern.toList).width = resolved.table.inputWidth := by
    rw [Pattern.width, ← List.length_map (f := PatternBit.symbol), symbols, String.length_toList]
    exact resolved.table.wellFormed.patterns row present
  refine ⟨fun empty => ?_, width, ?_, ascending_pairwise _⟩
  · have positive := resolved.table.inputWidth_pos
    change (Pattern.ofSymbols row.pattern.toList).bits = [] at empty
    rw [← width, Pattern.width, empty] at positive
    cases positive
  · intro field asserted
    have located : field ∈ row.asserted.filterMap resolved.table.output.fieldIndex? := by
      simpa [ResolvedRule.guard, Rule.resolve] using asserted
    obtain ⟨name, _, found⟩ := List.mem_filterMap.mp located
    exact (List.getElem?_eq_some_iff.mp (Schema.getElem?_of_fieldIndex? found)).1

theorem nativeLogic_fault? (resolved : Resolved) : resolved.nativeLogic.fault? = none := by
  refine (Logic.fault?_eq_none_iff _).mpr ⟨fun guard member => resolved.guard_wellFormed member, ?_⟩
  exact List.pairwise_map.mpr resolved.enabledRules_pairwise

end Resolved

/-- The native backend yields logic for every resolved table. -/
theorem Backend.compile_native (resolved : Resolved) :
    Backend.native.compile resolved = .ok resolved.nativeLogic := by
  simp only [Backend.compile, resolved.nativeLogic_fault?]

end DecoderGen
