import DecoderGen.Proofs.NativeGuards
import DecoderGen.Proofs.OverlapAnalysis

/-! # Rules that can be switched off

A row that is reported as shadowed never decides an input: the row that covers it stands before it
and takes all of its inputs. The row that covers it may be shadowed and switched off itself. But the
first row that matches an input is covered by none, so it stays, and it still decides when any rows
that never decide are switched off. A row that is not reported as the later one of a pair decides all
inputs that it matches.
-/

namespace DecoderGen

/-- The row at a position is reported as covered by an earlier one. -/
def Resolved.Shadowed (resolved : Resolved) (position : Nat) : Prop :=
  ∃ overlap ∈ resolved.overlaps, overlap.shadowed = true ∧ overlap.laterPosition = position

/-- The rows with those at chosen positions switched off. -/
def switchOff (chosen : Nat → Bool) (rules : List Rule) : List Rule :=
  rules.mapIdx fun position rule =>
    if chosen position then { rule with enabled := false } else rule

section SwitchOff

variable {chosen : Nat → Bool} {rules : List Rule} {rule : Rule} {position : Nat}

/-- What stands at a position is the row that stood there, switched off if it is chosen. -/
theorem getElem?_switchOff_eq_some_iff :
    (switchOff chosen rules)[position]? = some rule ↔
      ∃ row, rules[position]? = some row ∧
        rule = if chosen position then { row with enabled := false } else row := by
  rw [switchOff, List.getElem?_mapIdx, Option.map_eq_some_iff]
  simp only [eq_comm]

/-- Every row keeps its name, its pattern and its fields. -/
theorem exists_row_of_mem_switchOff (member : rule ∈ switchOff chosen rules) :
    ∃ row ∈ rules, rule.name = row.name ∧ rule.pattern = row.pattern ∧
      rule.asserted = row.asserted := by
  obtain ⟨position, listed⟩ := List.mem_iff_getElem?.mp member
  obtain ⟨row, there, rfl⟩ := getElem?_switchOff_eq_some_iff.mp listed
  refine ⟨row, List.mem_of_getElem? there, ?_⟩
  split <;> exact ⟨rfl, rfl, rfl⟩

/-- The enabled rows are those that were enabled and are not chosen. -/
theorem getElem?_switchOff_of_enabled (enabled : rule.enabled = true) :
    (switchOff chosen rules)[position]? = some rule ↔
      rules[position]? = some rule ∧ chosen position = false := by
  rw [getElem?_switchOff_eq_some_iff]
  constructor
  · rintro ⟨row, listed, rfl⟩
    split at enabled
    · cases enabled
    · next kept =>
      rw [if_neg kept]
      exact ⟨listed, Bool.eq_false_iff.mpr kept⟩
  · rintro ⟨listed, kept⟩
    exact ⟨rule, listed, by rw [kept]; rfl⟩

end SwitchOff

namespace Table

variable {table : Table} {input : Input}

/-- The same table with rows at chosen positions switched off. -/
def switchOff (table : Table) (chosen : Nat → Bool) : Table where
  toDraft := { table.toDraft with rules := DecoderGen.switchOff chosen table.rules }
  wellFormed :=
    { table.wellFormed with
      ruleNames := fun rule member => by
        obtain ⟨row, among, name, _, _⟩ := exists_row_of_mem_switchOff member
        rw [name]
        exact table.wellFormed.ruleNames row among
      patterns := fun rule member => by
        obtain ⟨row, among, _, pattern, _⟩ := exists_row_of_mem_switchOff member
        rw [pattern]
        exact table.wellFormed.patterns row among }

/-- Faults are reported whether a row is enabled or not. -/
theorem ruleFaults_switchOff (clean : table.ruleFaults = []) (chosen : Nat → Bool) :
    (table.switchOff chosen).ruleFaults = [] := by
  apply List.flatMap_eq_nil_iff.mpr
  intro rule member
  obtain ⟨row, among, name, pattern, asserted⟩ := exists_row_of_mem_switchOff member
  have faults := List.flatMap_eq_nil_iff.mp clean row among
  rw [Rule.faults, ← name, ← pattern, ← asserted] at faults
  exact faults

/-- Where an enabled row matches, some row decides, and not behind it. -/
theorem exists_decides {position : Nat} {row : Rule} (listed : table.rules[position]? = some row)
    (enabled : row.enabled = true) (agrees : row.Matches input) :
    ∃ first ≤ position, ∃ rule, table.Decides input first rule := by
  induction position using Nat.strongRecOn generalizing row with
  | ind position ih =>
    by_cases preceded : ∃ earlier < position, ∃ other, table.rules[earlier]? = some other ∧
        other.enabled = true ∧ other.Matches input
    · obtain ⟨earlier, before, other, there, active, also⟩ := preceded
      obtain ⟨first, bound, rule, decides⟩ := ih earlier before there active also
      exact ⟨first, by omega, rule, decides⟩
    · refine ⟨position, Nat.le_refl position, row, listed, enabled, agrees, ?_⟩
      intro earlier before other there active also
      exact preceded ⟨earlier, before, other, there, active, also⟩

/-- Rows that do not decide an input can be switched off, all at once: the row that decides stays,
and no row before it is added. -/
theorem decides_switchOff_iff {chosen : Nat → Bool}
    (idle : ∀ position, chosen position = true → ∀ rule, ¬ table.Decides input position rule)
    (position : Nat) (rule : Rule) :
    (table.switchOff chosen).Decides input position rule ↔ table.Decides input position rule := by
  have kept : ∀ first row, table.Decides input first row → chosen first = false := by
    intro first row decides
    apply Bool.eq_false_iff.mpr
    intro dropped
    exact idle first dropped row decides
  constructor
  · rintro ⟨listed, enabled, agrees, first⟩
    obtain ⟨there, _⟩ := (getElem?_switchOff_of_enabled enabled).mp listed
    refine ⟨there, enabled, agrees, fun earlier before other among active also => ?_⟩
    -- The earlier row may be switched off, but then a row in front of it decides and stays.
    obtain ⟨place, bound, decider, decides⟩ := exists_decides among active also
    have stays := (getElem?_switchOff_of_enabled decides.enabled).mpr
      ⟨decides.listed, kept place decider decides⟩
    exact first place (by omega) decider stays decides.enabled decides.agrees
  · intro decides
    refine ⟨?_, decides.enabled, decides.agrees, fun earlier before other among active => ?_⟩
    · exact (getElem?_switchOff_of_enabled decides.enabled).mpr
        ⟨decides.listed, kept position rule decides⟩
    · obtain ⟨there, _⟩ := (getElem?_switchOff_of_enabled active).mp among
      exact decides.first earlier before other there active

end Table

namespace Resolved

/-- A resolved table with rows at chosen positions switched off. -/
def switchOff (resolved : Resolved) (chosen : Nat → Bool) : Resolved :=
  ⟨resolved.table.switchOff chosen, Table.ruleFaults_switchOff resolved.noFaults chosen⟩

variable (resolved : Resolved) {position : Nat} {input : Input}

/-- A shadowed row never decides: its inputs go to the row that covers it. -/
theorem Shadowed.not_decides {resolved : Resolved} (shadowed : resolved.Shadowed position)
    (rule : Rule) : ¬ resolved.table.Decides input position rule := by
  obtain ⟨overlap, member, covered, rfl⟩ := shadowed
  obtain ⟨earlier, later, left, right, collide, found⟩ :=
    (resolved.mem_overlaps_iff overlap).mp member
  have describes := resolved.describes_of_ofRules? collide.left_listed collide.right_listed found
  obtain ⟨-, atLater⟩ := Overlap.positions_of_ofRules? found
  intro decides
  have listed := decides.listed
  rw [atLater] at listed decides
  obtain rfl : rule = right := Option.some.inj (listed.symm.trans collide.right_listed)
  exact decides.first earlier collide.before left collide.left_listed collide.left_enabled
    (describes.shadowed.mp covered input decides.agrees)

/-- Two enabled rows with a common input are reported, by an entry that describes them. -/
theorem exists_overlap_of_collide {earlier later : Nat} {left right : Rule}
    (collide : resolved.table.Collide earlier later left right) :
    ∃ overlap ∈ resolved.overlaps, overlap.laterPosition = later ∧
      overlap.Describes resolved.table.inputWidth left right := by
  have overlapping :=
    (resolved.overlaps_resolve_iff collide.left_listed collide.right_listed).mpr collide.common
  have found := (Overlap.ofRules?_eq_some_iff _ _ _).mpr ⟨overlapping, rfl⟩
  exact ⟨_, (resolved.mem_overlaps_iff _).mpr ⟨_, _, _, _, collide, found⟩, rfl,
    resolved.describes_of_ofRules? collide.left_listed collide.right_listed found⟩

/-- A row that is not the later one of a reported pair decides whatever it matches. -/
theorem decides_of_unreported {row : Rule}
    (listed : resolved.table.rules[position]? = some row) (enabled : row.enabled = true)
    (unreported : ∀ overlap ∈ resolved.overlaps, overlap.laterPosition ≠ position)
    (agrees : row.Matches input) : resolved.table.Decides input position row := by
  refine ⟨listed, enabled, agrees, fun earlier before other there active also => ?_⟩
  have common : ∃ input : Input, input.length = resolved.table.inputWidth ∧
      other.Matches input ∧ row.Matches input :=
    ⟨input, resolved.table.length_of_matches listed agrees, also, agrees⟩
  obtain ⟨overlap, member, later, _⟩ := resolved.exists_overlap_of_collide
    ⟨before, there, listed, active, enabled, common⟩
  exact unreported overlap member later

theorem exists_matches {row : Rule} (listed : resolved.table.rules[position]? = some row) :
    ∃ input, row.Matches input := by
  obtain ⟨input, accepted⟩ :=
    Pattern.exists_acceptsBits (row.resolve resolved.table.output position).pattern.bits
  exact ⟨input, (resolved.accepts_iff_matches input listed).mp accepted⟩

theorem firstMatch?_of_decides {row : Rule} (decides : resolved.table.Decides input position row) :
    ∃ guard, resolved.nativeLogic.firstMatch? input = some guard ∧
      guard.Represents resolved.table.output (row, position) := by
  have among := (resolved.table.mem_enabledRows_iff (row, position)).mpr
    ⟨decides.listed, decides.enabled⟩
  refine ⟨(row.resolve resolved.table.output position).guard, ?_, resolved.represents_guard among⟩
  exact (resolved.firstMatch?_eq_some_iff input _).mpr ⟨position, row, decides, rfl⟩

end Resolved

/-- A shadowed row is the first match of no input, and the table with any set of shadowed rows
switched off evaluates every input as before. An enabled row that is not the later one of a reported
pair matches some input, and is the first match of every input that it matches. -/
theorem Table.shadowed_rows_switch_off (table : Table) (resolved : Resolved)
    (accepted : table.resolve = .ok resolved) :
    ∃ logic, Backend.native.compile resolved = .ok logic ∧
      (∀ position, resolved.Shadowed position → ∀ input guard,
        logic.firstMatch? input = some guard → guard.position ≠ position) ∧
      (∀ chosen : Nat → Bool, (∀ position, chosen position = true → resolved.Shadowed position) →
        ∃ fewer fewerResolved fewerLogic,
          Table.ofDraft { table.toDraft with rules := DecoderGen.switchOff chosen table.rules } =
            .ok fewer ∧ fewer.resolve = .ok fewerResolved ∧
          Backend.native.compile fewerResolved = .ok fewerLogic ∧
          ∀ input, fewerLogic.evaluate input = logic.evaluate input) ∧
      ∀ (position : Nat) (row : Rule), table.rules[position]? = some row → row.enabled = true →
        (∀ overlap ∈ resolved.overlaps, overlap.laterPosition ≠ position) →
          (∃ input, row.Matches input) ∧ ∀ input, row.Matches input →
            ∃ guard, logic.firstMatch? input = some guard ∧
              guard.Represents table.output (row, position) := by
  obtain rfl := (table.resolve_eq_ok_iff resolved).mp accepted
  refine ⟨_, Backend.compile_native resolved, ?_, ?_, ?_⟩
  · rintro position shadowed input guard found rfl
    obtain ⟨place, row, decides, rfl⟩ := (resolved.firstMatch?_eq_some_iff input guard).mp found
    exact shadowed.not_decides row decides
  · intro chosen shadowed
    refine ⟨resolved.table.switchOff chosen, resolved.switchOff chosen, _,
      (Table.ofDraft_eq_ok_iff _ _).mpr rfl, (Table.resolve_eq_ok_iff _ _).mpr rfl,
      Backend.compile_native _, fun input => ?_⟩
    refine Resolved.evaluate_eq_of_asserted ?_ fun name => ?_
    · rfl
    have idle : ∀ position, chosen position = true → ∀ rule,
        ¬ resolved.table.Decides input position rule :=
      fun position dropped => (shadowed position dropped).not_decides
    simp only [Resolved.switchOff, Table.decides_switchOff_iff idle]
  · intro position row listed enabled unreported
    refine ⟨resolved.exists_matches listed, fun input agrees => ?_⟩
    exact resolved.firstMatch?_of_decides
      (resolved.decides_of_unreported listed enabled unreported agrees)

/-- A row, two rows behind it of which each is covered by all before it, and a row of other inputs. -/
def coveredDraft : Draft where
  moduleName := "dec"
  width := 3
  output := ⟨"ctrl_t", ["load", "store"]⟩
  rules :=
    [⟨"wide", "1..", ["load"], true⟩,
      ⟨"narrow", "11.", ["store"], true⟩,
      ⟨"narrower", "111", ["load", "store"], true⟩,
      ⟨"other", "0.1", ["store"], true⟩]

/-- The covered rows as a resolved table. -/
def covered : Resolved :=
  ⟨⟨coveredDraft, coveredDraft.fault?_eq_none_iff.mp (by decide +kernel)⟩, by decide +kernel⟩

/-- Both covered rows can be switched off together, although one covers the other; and the row of
other inputs always decides. -/
theorem covered_rows_switch_off :
    covered.table.resolve = .ok covered ∧
    ∃ logic, Backend.native.compile covered = .ok logic ∧
      (∃ fewer fewerResolved fewerLogic,
        Table.ofDraft { coveredDraft with
          rules :=
            [⟨"wide", "1..", ["load"], true⟩, ⟨"narrow", "11.", ["store"], false⟩,
              ⟨"narrower", "111", ["load", "store"], false⟩, ⟨"other", "0.1", ["store"], true⟩] } =
          .ok fewer ∧ fewer.resolve = .ok fewerResolved ∧
        Backend.native.compile fewerResolved = .ok fewerLogic ∧
        ∀ input, fewerLogic.evaluate input = logic.evaluate input) ∧
      ∃ guard, logic.firstMatch? [false, true, true] = some guard ∧ guard.name = "other" := by
  have accepted : covered.table.resolve = .ok covered :=
    (covered.table.resolve_eq_ok_iff covered).mpr rfl
  obtain ⟨logic, compiled, _, removable, free⟩ :=
    Table.shadowed_rows_switch_off covered.table covered accepted
  refine ⟨accepted, logic, compiled, ?_, ?_⟩
  · refine removable (fun position => position = 1 || position = 2) ?_
    intro position dropped
    have reported : ∀ place ∈ [1, 2], ∃ overlap ∈ covered.overlaps,
        overlap.shadowed = true ∧ overlap.laterPosition = place := by decide +kernel
    apply reported
    simpa using dropped
  · have unreported : ∀ overlap ∈ covered.overlaps, overlap.laterPosition ≠ 3 := by decide +kernel
    obtain ⟨guard, found, represents⟩ :=
      (free 3 _ rfl rfl unreported).2 [false, true, true] (by decide +kernel)
    exact ⟨guard, found, represents.name⟩

end DecoderGen
