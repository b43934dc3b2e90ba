import DecoderGen.Overlap
import DecoderGen.Proofs.TableMeaning

/-! # What the overlap analysis reports

The analysis compares resolved rules pair by pair. Its report is read against the rows of the table:
one entry for each pair of enabled rows that some input matches, in the order of the table, with the
positions and names of both rows. That an entry calls the later row shadowed says that no input of
the later row escapes the earlier one.
-/

namespace DecoderGen

/-- Two enabled rows at the given positions, the first before the second, match a common input. -/
structure Table.Collide (table : Table) (earlier later : Nat) (left right : Rule) : Prop where
  before : earlier < later
  left_listed : table.rules[earlier]? = some left
  right_listed : table.rules[later]? = some right
  left_enabled : left.enabled = true
  right_enabled : right.enabled = true
  common : ∃ input : Input, input.length = table.inputWidth ∧
    left.Matches input ∧ right.Matches input

namespace Overlap

/-- The order of a report: by the later row of each pair, then by the earlier one. -/
def Precedes (first second : Overlap) : Prop :=
  first.laterPosition < second.laterPosition ∨
    first.laterPosition = second.laterPosition ∧ first.earlierPosition < second.earlierPosition

/-- What an entry of a report says about two rows. -/
structure Describes (overlap : Overlap) (width : Nat) (left right : Rule) : Prop where
  earlier : overlap.earlier = left.name
  later : overlap.later = right.name
  width : overlap.witness.length = width
  left_witness : left.Matches overlap.witness
  right_witness : right.Matches overlap.witness
  shadowed : overlap.shadowed = true ↔ ∀ input, right.Matches input → left.Matches input

theorem ofRules?_eq_some_iff (later earlier : ResolvedRule) (overlap : Overlap) :
    ofRules? later earlier = some overlap ↔
      earlier.pattern.overlaps later.pattern = true ∧
        overlap =
          { earlier := earlier.rule.name
            earlierPosition := earlier.position
            later := later.rule.name
            laterPosition := later.position
            witness := Pattern.commonBits earlier.pattern.bits later.pattern.bits
            shadowed := earlier.pattern.covers later.pattern } := by
  unfold ofRules? Pattern.commonInput?
  split
  · next overlapping => simp [overlapping, eq_comm]
  · next disjoint => simp [disjoint]

theorem positions_of_ofRules? {later earlier : ResolvedRule} {overlap : Overlap}
    (found : ofRules? later earlier = some overlap) :
    overlap.earlierPosition = earlier.position ∧ overlap.laterPosition = later.position := by
  obtain ⟨_, rfl⟩ := (ofRules?_eq_some_iff later earlier overlap).mp found
  exact ⟨rfl, rfl⟩

/-- Among rules in table order, the report holds the overlaps of each rule with all earlier ones. -/
theorem mem_among_iff {before rules : List ResolvedRule}
    (ordered : (before ++ rules).Pairwise fun first second => first.position < second.position)
    (overlap : Overlap) :
    overlap ∈ among before rules ↔
      ∃ earlier ∈ before ++ rules, ∃ later ∈ rules,
        earlier.position < later.position ∧ ofRules? later earlier = some overlap := by
  induction rules generalizing before with
  | nil => simp [among]
  | cons rule rest ih =>
    have shifted : before ++ rule :: rest = before ++ [rule] ++ rest := by simp
    obtain ⟨_, behind, across⟩ := List.pairwise_append.mp ordered
    have above := (List.pairwise_cons.mp behind).1
    rw [among, List.mem_append, List.mem_filterMap, ih (shifted ▸ ordered), ← shifted]
    constructor
    · rintro (⟨earlier, member, found⟩ | ⟨earlier, member, later, place, smaller, found⟩)
      · have smaller := across earlier member rule (List.mem_cons_self ..)
        exact ⟨earlier, List.mem_append_left _ member, rule, List.mem_cons_self .., smaller, found⟩
      · exact ⟨earlier, member, later, List.mem_cons_of_mem _ place, smaller, found⟩
    · rintro ⟨earlier, member, later, place, smaller, found⟩
      rcases List.mem_cons.mp place with rfl | place
      · -- Only a rule in front of the current one has a smaller position.
        refine .inl ⟨earlier, ?_, found⟩
        rcases List.mem_append.mp member with front | back
        · exact front
        · rcases List.mem_cons.mp back with rfl | back
          · omega
          · have := above earlier back
            omega
      · exact .inr ⟨earlier, member, later, place, smaller, found⟩

/-- Among rules in table order, the report is in order and repeats no pair. -/
theorem among_pairwise {before rules : List ResolvedRule}
    (ordered : (before ++ rules).Pairwise fun first second => first.position < second.position) :
    (among before rules).Pairwise Precedes := by
  induction rules generalizing before with
  | nil => exact .nil
  | cons rule rest ih =>
    have shifted : (before ++ [rule] ++ rest).Pairwise fun first second =>
        first.position < second.position := by simpa using ordered
    obtain ⟨front, behind, _⟩ := List.pairwise_append.mp ordered
    have above := (List.pairwise_cons.mp behind).1
    rw [among, List.pairwise_append]
    refine ⟨?_, ih shifted, ?_⟩
    · -- With one later rule, the entries follow the order of the earlier ones.
      refine front.filterMap _ fun first second smaller one oneFound other otherFound => ?_
      have onePositions := positions_of_ofRules? oneFound
      have otherPositions := positions_of_ofRules? otherFound
      unfold Precedes
      omega
    · intro one here other there
      obtain ⟨earlier, _, oneFound⟩ := List.mem_filterMap.mp here
      obtain ⟨_, _, later, place, _, otherFound⟩ := (mem_among_iff shifted other).mp there
      have onePositions := positions_of_ofRules? oneFound
      have otherPositions := positions_of_ofRules? otherFound
      have := above later place
      unfold Precedes
      omega

/-- In an ordered report the positions of a pair tell its entry. -/
theorem eq_of_positions_eq {report : List Overlap} (ordered : report.Pairwise Precedes)
    {first second : Overlap} (one : first ∈ report) (other : second ∈ report)
    (earlier : first.earlierPosition = second.earlierPosition)
    (later : first.laterPosition = second.laterPosition) : first = second := by
  have distinct : (report.map fun entry => (entry.earlierPosition, entry.laterPosition)).Nodup := by
    refine List.pairwise_map.mpr (ordered.imp fun precedes same => ?_)
    simp only [Prod.mk.injEq] at same
    unfold Precedes at precedes
    omega
  exact List.inj_on_of_nodup_map distinct one other (by rw [earlier, later])

end Overlap

theorem Table.length_of_matches (table : Table) {position : Nat} {row : Rule} {input : Input}
    (listed : table.rules[position]? = some row) (agrees : row.Matches input) :
    input.length = table.inputWidth := by
  rw [← agrees.length_eq, String.length_toList]
  exact table.wellFormed.patterns row (List.mem_of_getElem? listed)

namespace Resolved

section Comparison
variable (resolved : Resolved) {earlier later : Nat} {left right : Rule}
  (leftListed : resolved.table.rules[earlier]? = some left)
  (rightListed : resolved.table.rules[later]? = some right)
include leftListed rightListed

theorem overlaps_resolve_iff :
    (left.resolve resolved.table.output earlier).pattern.overlaps
        (right.resolve resolved.table.output later).pattern = true ↔
      ∃ input : Input, input.length = resolved.table.inputWidth ∧
        left.Matches input ∧ right.Matches input := by
  rw [Pattern.overlaps_iff_exists_input]
  simp only [resolved.accepts_iff_matches _ leftListed, resolved.accepts_iff_matches _ rightListed]
  refine exists_congr fun input => ⟨fun both => ⟨?_, both⟩, And.right⟩
  exact resolved.table.length_of_matches leftListed both.1

/-- Comparing two resolved rows describes the rows as they are written. -/
theorem describes_of_ofRules? {overlap : Overlap}
    (found : Overlap.ofRules? (right.resolve resolved.table.output later)
      (left.resolve resolved.table.output earlier) = some overlap) :
    overlap.Describes resolved.table.inputWidth left right := by
  obtain ⟨overlapping, rfl⟩ := (Overlap.ofRules?_eq_some_iff _ _ _).mp found
  obtain ⟨first, second⟩ := (Pattern.overlaps_iff_accepts_commonBits _ _).mp overlapping
  rw [resolved.accepts_iff_matches _ leftListed] at first
  rw [resolved.accepts_iff_matches _ rightListed] at second
  refine ⟨rfl, rfl, resolved.table.length_of_matches leftListed first, first, second, ?_⟩
  simp only [Pattern.covers_iff_forall_input, resolved.accepts_iff_matches _ leftListed,
    resolved.accepts_iff_matches _ rightListed]

end Comparison

theorem overlaps_pairwise (resolved : Resolved) : resolved.overlaps.Pairwise Overlap.Precedes :=
  Overlap.among_pairwise resolved.enabledRules_pairwise

/-- The report holds the comparisons of enabled rows that find an overlap. -/
theorem mem_overlaps_iff (resolved : Resolved) (overlap : Overlap) :
    overlap ∈ resolved.overlaps ↔
      ∃ earlier later left right, resolved.table.Collide earlier later left right ∧
        Overlap.ofRules? (right.resolve resolved.table.output later)
          (left.resolve resolved.table.output earlier) = some overlap := by
  rw [overlaps, Overlap.mem_among_iff resolved.enabledRules_pairwise, List.nil_append]
  simp only [mem_enabledRules_iff]
  constructor
  · rintro ⟨_, ⟨earlier, left, leftListed, leftEnabled, rfl⟩,
      _, ⟨later, right, rightListed, rightEnabled, rfl⟩, before, found⟩
    have common := (resolved.overlaps_resolve_iff leftListed rightListed).mp
      ((Overlap.ofRules?_eq_some_iff _ _ _).mp found).1
    exact ⟨earlier, later, left, right,
      ⟨before, leftListed, rightListed, leftEnabled, rightEnabled, common⟩, found⟩
  · rintro ⟨earlier, later, left, right, collide, found⟩
    exact ⟨_, ⟨earlier, left, collide.left_listed, collide.left_enabled, rfl⟩,
      _, ⟨later, right, collide.right_listed, collide.right_enabled, rfl⟩, collide.before, found⟩

/-- The overlap analysis is exact: its report is in order, has one entry for each pair of enabled
rows with a common input and no other entry, and each entry describes the rows at its positions. -/
theorem overlaps_describe_collisions (resolved : Resolved) :
    resolved.overlaps.Pairwise Overlap.Precedes ∧
    (∀ earlier later left right, resolved.table.Collide earlier later left right →
      ∃! overlap, overlap ∈ resolved.overlaps ∧
        overlap.earlierPosition = earlier ∧ overlap.laterPosition = later) ∧
    ∀ overlap ∈ resolved.overlaps, ∃ left right,
      resolved.table.Collide overlap.earlierPosition overlap.laterPosition left right ∧
        overlap.Describes resolved.table.inputWidth left right := by
  refine ⟨resolved.overlaps_pairwise, ?_, ?_⟩
  · intro earlier later left right collide
    have overlapping :=
      (resolved.overlaps_resolve_iff collide.left_listed collide.right_listed).mpr collide.common
    have found := (Overlap.ofRules?_eq_some_iff _ _ _).mpr ⟨overlapping, rfl⟩
    have member := (resolved.mem_overlaps_iff _).mpr ⟨_, _, _, _, collide, found⟩
    refine ⟨_, ⟨member, rfl, rfl⟩, ?_⟩
    rintro other ⟨present, rfl, rfl⟩
    exact Overlap.eq_of_positions_eq resolved.overlaps_pairwise present member rfl rfl
  · intro overlap member
    obtain ⟨earlier, later, left, right, collide, found⟩ :=
      (resolved.mem_overlaps_iff overlap).mp member
    obtain ⟨rfl, rfl⟩ : overlap.earlierPosition = earlier ∧ overlap.laterPosition = later :=
      Overlap.positions_of_ofRules? found
    exact ⟨left, right, collide,
      resolved.describes_of_ofRules? collide.left_listed collide.right_listed found⟩

end Resolved

/-- The enabled rows of the layered table collide, and the report names them by their places in the
whole table, the row switched off included. -/
theorem layered_overlaps_describe :
    layered.Collide 1 2 ⟨"narrow", "11", ["store", "store"], true⟩
      ⟨"wide", "1.", ["store", "load"], true⟩ ∧
    ∃! overlap, overlap ∈ layeredResolved.overlaps ∧
      overlap.earlierPosition = 1 ∧ overlap.laterPosition = 2 := by
  have collide : layered.Collide 1 2 ⟨"narrow", "11", ["store", "store"], true⟩
      ⟨"wide", "1.", ["store", "load"], true⟩ :=
    ⟨by decide, rfl, rfl, rfl, rfl, [true, true], rfl, by decide, by decide⟩
  exact ⟨collide, layeredResolved.overlaps_describe_collisions.2.1 _ _ _ _ collide⟩

end DecoderGen
