import DecoderGen.Proofs.CompileStages

/-! # Strict mode

Strict mode refuses every overlap, and the overlap analysis finds every pair of enabled rows with a
common input. So in a table that strict mode compiles at most one enabled row matches an input, the
outputs have a meaning without priority, and the rows may be listed in any order.
-/

namespace DecoderGen

/-- No input agrees with both rows. -/
def Rule.Apart (left right : Rule) : Prop := ∀ input, left.Matches input → ¬ right.Matches input

theorem Rule.Apart.symm {left right : Rule} (apart : left.Apart right) : right.Apart left :=
  fun input second first => apart input first second

/-- Any two enabled rows are apart. -/
def Table.Disjoint (table : Table) : Prop :=
  table.rules.Pairwise fun left right =>
    left.enabled = true → right.enabled = true → left.Apart right

theorem Overlap.ofRules?_eq_none_iff (later earlier : ResolvedRule) :
    ofRules? later earlier = none ↔ earlier.pattern.overlaps later.pattern = false := by
  simp [ofRules?, Pattern.commonInput?]

/-- The analysis stays silent exactly when no rule overlaps one before it. -/
theorem Overlap.among_eq_nil_iff (before rules : List ResolvedRule) :
    among before rules = [] ↔
      (∀ earlier ∈ before, ∀ later ∈ rules, earlier.pattern.overlaps later.pattern = false) ∧
        rules.Pairwise fun earlier later => earlier.pattern.overlaps later.pattern = false := by
  induction rules generalizing before with
  | nil => simp [among]
  | cons rule rest ih =>
    simp only [among, List.append_eq_nil_iff, List.filterMap_eq_nil_iff, ofRules?_eq_none_iff, ih,
      List.mem_append, List.mem_cons, List.not_mem_nil, or_false, List.pairwise_cons]
    constructor
    · rintro ⟨here, behind, ordered⟩
      refine ⟨fun earlier member later place => ?_, fun later place => ?_, ordered⟩
      · rcases place with rfl | place
        · exact here earlier member
        · exact behind earlier (.inl member) later place
      · exact behind rule (.inr rfl) later place
    · rintro ⟨apart, first, ordered⟩
      refine ⟨fun earlier member => apart earlier member rule (.inl rfl), ?_, ordered⟩
      rintro earlier (member | rfl) later place
      · exact apart earlier member later (.inr place)
      · exact first later place

namespace Resolved

theorem overlaps_eq_false_iff_apart (resolved : Resolved) {left right : ResolvedRule}
    (first : left ∈ resolved.enabledRules) (second : right ∈ resolved.enabledRules) :
    left.pattern.overlaps right.pattern = false ↔ left.rule.Apart right.rule := by
  obtain ⟨place, row, listed, _, rfl⟩ := (resolved.mem_enabledRules_iff left).mp first
  obtain ⟨otherPlace, other, otherListed, _, rfl⟩ := (resolved.mem_enabledRules_iff right).mp second
  rw [← Bool.not_eq_true, Pattern.overlaps_iff_exists_input]
  simp only [resolved.accepts_iff_matches _ listed, resolved.accepts_iff_matches _ otherListed,
    not_exists, not_and]
  rfl

/-- The analysis finds nothing exactly when the enabled rows of the table are disjoint. -/
theorem overlaps_eq_nil_iff_disjoint (resolved : Resolved) :
    resolved.overlaps = [] ↔ resolved.table.Disjoint := by
  have silent : resolved.overlaps = [] ↔ resolved.enabledRules.Pairwise fun earlier later =>
      earlier.pattern.overlaps later.pattern = false := by
    simp [overlaps, Overlap.among_eq_nil_iff]
  have rows : resolved.table.Disjoint ↔
      (resolved.enabledRules.map (·.rule)).Pairwise Rule.Apart := by
    rw [map_rule_enabledRules, List.pairwise_filter]
    rfl
  rw [silent, rows, List.pairwise_map]
  exact List.Pairwise.iff_of_mem fun first second =>
    resolved.overlaps_eq_false_iff_apart first second

end Resolved

namespace Table

/-- At most one enabled row of a disjoint table matches an input. -/
theorem Disjoint.position_unique {table : Table} (disjoint : table.Disjoint) {input : Input}
    {first second : Nat} {left right : Rule} (firstListed : table.rules[first]? = some left)
    (secondListed : table.rules[second]? = some right) (leftEnabled : left.enabled = true)
    (rightEnabled : right.enabled = true) (leftMatches : left.Matches input)
    (rightMatches : right.Matches input) : first = second := by
  have pairs := List.pairwise_iff_getElem.mp disjoint
  obtain ⟨firstBound, rfl⟩ := List.getElem?_eq_some_iff.mp firstListed
  obtain ⟨secondBound, rfl⟩ := List.getElem?_eq_some_iff.mp secondListed
  rcases Nat.lt_trichotomy first second with before | same | after
  · exact absurd rightMatches
      (pairs first second firstBound secondBound before leftEnabled rightEnabled input leftMatches)
  · exact same
  · exact absurd leftMatches
      (pairs second first secondBound firstBound after rightEnabled leftEnabled input rightMatches)

/-- In a disjoint table every enabled row that matches decides. -/
theorem Disjoint.decides_iff {table : Table} (disjoint : table.Disjoint) (input : Input)
    (position : Nat) (rule : Rule) :
    table.Decides input position rule ↔
      table.rules[position]? = some rule ∧ rule.enabled = true ∧ rule.Matches input := by
  constructor
  · intro decides
    exact ⟨decides.listed, decides.enabled, decides.agrees⟩
  · rintro ⟨listed, enabled, agrees⟩
    refine ⟨listed, enabled, agrees, fun earlier before other there active also => ?_⟩
    exact Nat.ne_of_lt before
      (disjoint.position_unique there listed active enabled also agrees)

/-- In a disjoint table a field is set when some matching row asserts it. -/
theorem Disjoint.evaluate_eq_true_iff {resolved : Resolved} (disjoint : resolved.table.Disjoint)
    (input : Input) {field : Nat} {name : String}
    (declared : resolved.table.output.fields[field]? = some name) :
    (resolved.nativeLogic.evaluate input)[field]? = some true ↔
      ∃ rule ∈ resolved.table.rules, rule.enabled = true ∧ rule.Matches input ∧
        name ∈ rule.asserted := by
  rw [resolved.evaluate_eq_true_iff_decides input declared]
  simp only [disjoint.decides_iff]
  constructor
  · rintro ⟨position, rule, ⟨listed, enabled, agrees⟩, asserted⟩
    exact ⟨rule, List.mem_of_getElem? listed, enabled, agrees, asserted⟩
  · rintro ⟨rule, member, enabled, agrees, asserted⟩
    obtain ⟨position, listed⟩ := List.mem_iff_getElem?.mp member
    exact ⟨position, rule, ⟨listed, enabled, agrees⟩, asserted⟩

/-- The same table with its rows in another order. -/
def reorder (table : Table) (rules : List Rule) (perm : rules.Perm table.rules) : Table where
  toDraft := { table.toDraft with rules }
  wellFormed :=
    { table.wellFormed with
      ruleNames := fun rule member => table.wellFormed.ruleNames rule (perm.mem_iff.mp member)
      patterns := fun rule member => table.wellFormed.patterns rule (perm.mem_iff.mp member) }

theorem Disjoint.reorder {table : Table} (disjoint : table.Disjoint) {rules : List Rule}
    (perm : rules.Perm table.rules) : (table.reorder rules perm).Disjoint :=
  (perm.pairwise_iff fun apart right left => (apart left right).symm).mpr disjoint

theorem ruleFaults_reorder {table : Table} (clean : table.ruleFaults = []) {rules : List Rule}
    (perm : rules.Perm table.rules) : (table.reorder rules perm).ruleFaults = [] :=
  List.flatMap_eq_nil_iff.mpr fun rule member =>
    List.flatMap_eq_nil_iff.mp clean rule (perm.mem_iff.mp member)

end Table

/-- A resolved table with its rows in another order. -/
def Resolved.reorder (resolved : Resolved) (rules : List Rule)
    (perm : rules.Perm resolved.table.rules) : Resolved :=
  ⟨resolved.table.reorder rules perm, Table.ruleFaults_reorder resolved.noFaults perm⟩

/-- The rows of a disjoint table evaluate alike in every order. -/
theorem Table.Disjoint.evaluate_reorder {resolved : Resolved} (disjoint : resolved.table.Disjoint)
    {rules : List Rule} (perm : rules.Perm resolved.table.rules) (input : Input) :
    (resolved.reorder rules perm).nativeLogic.evaluate input =
      resolved.nativeLogic.evaluate input := by
  have otherDisjoint : (resolved.reorder rules perm).table.Disjoint := disjoint.reorder perm
  apply eq_of_getElem?_eq_true_iff
  · rw [Logic.evaluate_length, Logic.evaluate_length]
    rfl
  · intro field bound
    rw [Logic.evaluate_length] at bound
    have declared : resolved.table.output.fields[field]? = _ := List.getElem?_eq_getElem bound
    rw [otherDisjoint.evaluate_eq_true_iff input declared,
      disjoint.evaluate_eq_true_iff input declared]
    -- Both sides ask for some row, and the order of rows changes no membership.
    exact exists_congr fun rule => and_congr_left fun _ => perm.mem_iff

/-- Whatever strict mode compiles has a meaning without priority: a field is set when some enabled
row that matches asserts it, no two enabled rows match one input, and the rows in any other order
compile to logic with the same outputs. -/
theorem Table.strict_compile_any_order (table : Table) (config : Config) (compilation : Compilation)
    (strict : config.strict = true) (compiled : table.compile config = .ok compilation) :
    (∀ input, (∀ (field : Nat) (name : String), table.output.fields[field]? = some name →
        ((compilation.logic.evaluate input)[field]? = some true ↔
          ∃ rule ∈ table.rules, rule.enabled = true ∧ rule.Matches input ∧
            name ∈ rule.asserted)) ∧
      ∀ (first second : Nat) (left right : Rule), table.rules[first]? = some left →
        table.rules[second]? = some right → left.enabled = true → right.enabled = true →
          left.Matches input → right.Matches input → first = second) ∧
    ∀ rules : List Rule, rules.Perm table.rules →
      ∃ reordered other, Table.ofDraft { table.toDraft with rules } = .ok reordered ∧
        reordered.compile config = .ok other ∧
          ∀ input, other.logic.evaluate input = compilation.logic.evaluate input := by
  obtain ⟨styled, resolved, rfl, silent, native, rfl⟩ := (table.compile_eq_ok_iff _ _).mp compiled
  have disjoint := resolved.overlaps_eq_nil_iff_disjoint.mp (silent strict)
  refine ⟨fun input => ⟨fun field name declared => ?_, ?_⟩, fun rules perm => ?_⟩
  · exact disjoint.evaluate_eq_true_iff input declared
  · intro first second left right firstListed secondListed leftEnabled rightEnabled
    exact disjoint.position_unique firstListed secondListed leftEnabled rightEnabled
  · have quiet : (resolved.reorder rules perm).overlaps = [] :=
      (Resolved.overlaps_eq_nil_iff_disjoint _).mpr (disjoint.reorder perm)
    refine ⟨resolved.table.reorder rules perm,
      (resolved.reorder rules perm).compilation config.style, ?_, ?_, ?_⟩
    · exact (Table.ofDraft_eq_ok_iff _ _).mpr rfl
    · exact (Table.compile_eq_ok_iff _ _ _).mpr
        ⟨styled, resolved.reorder rules perm, rfl, fun _ => quiet, native, rfl⟩
    · intro input
      exact disjoint.evaluate_reorder perm input

/-- Disjoint rows beside a row that overlaps both but is switched off. -/
def exclusiveDraft : Draft where
  moduleName := "dec"
  width := 2
  output := ⟨"ctrl_t", ["load", "store"]⟩
  rules :=
    [⟨"low", "0.", ["load"], true⟩,
      ⟨"off", "..", ["load", "store"], false⟩,
      ⟨"high", "10", ["store", "load"], true⟩]

/-- The disjoint rows as a resolved table. -/
def exclusive : Resolved :=
  ⟨⟨exclusiveDraft, exclusiveDraft.fault?_eq_none_iff.mp (by decide +kernel)⟩, by decide +kernel⟩

/-- Strict mode compiles the disjoint rows, and their reversal decodes every input alike. -/
theorem exclusive_strict_compile :
    exclusive.table.compile { strict := true } = .ok (exclusive.compilation {}) ∧
    ∃ reordered other, Table.ofDraft { exclusiveDraft with rules := exclusiveDraft.rules.reverse } =
        .ok reordered ∧ reordered.compile { strict := true } = .ok other ∧
      ∀ input, other.logic.evaluate input = exclusive.nativeLogic.evaluate input := by
  have compiled : exclusive.table.compile { strict := true } = .ok (exclusive.compilation {}) :=
    (Table.compile_eq_ok_iff _ _ _).mpr
      ⟨by decide +kernel, exclusive, rfl, fun _ => by decide +kernel, rfl, rfl⟩
  exact ⟨compiled, (Table.strict_compile_any_order _ _ _ rfl compiled).2 _ (List.reverse_perm _)⟩

end DecoderGen
