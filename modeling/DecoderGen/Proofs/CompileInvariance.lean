import DecoderGen.Proofs.CompileStages
import Mathlib.Data.List.Sort

/-! # Compilation depends on what a table says

Rows that are switched off, the places of the others, and the order and repetition of asserted
fields carry no meaning. Each resolved rule has a canonical form without them, and every later stage
is determined by the canonical forms of the enabled rules, the places in reported overlaps apart. So
two tables that say the same compile to the same files and the same logic, or fail in the same way.
-/

namespace DecoderGen

/-- Two rows say the same, whatever the order and repetition of their fields. -/
structure Rule.Alike (left right : Rule) : Prop where
  name : left.name = right.name
  pattern : left.pattern = right.pattern
  asserted : ∀ field, field ∈ left.asserted ↔ field ∈ right.asserted

/-- Two tables say the same: one interface, and enabled rows that are alike in order. -/
structure Table.Alike (left right : Table) : Prop where
  moduleName : left.moduleName = right.moduleName
  width : left.width = right.width
  output : left.output = right.output
  rows : List.Forall₂ Rule.Alike (left.rules.filter (·.enabled)) (right.rules.filter (·.enabled))

/-- An overlap without the places of its rules. -/
def Overlap.unplaced (overlap : Overlap) : Overlap :=
  { overlap with earlierPosition := 0, laterPosition := 0 }

/-- A guard without the place of its rule. -/
def Guard.unplaced (guard : Guard) : Guard := { guard with position := 0 }

/-- Match logic without the places of rules. -/
def Logic.unplaced (logic : Logic) : Logic :=
  { logic with guards := logic.guards.map Guard.unplaced }

/-- Two outcomes of compiling agree, the places of overlapping rules apart. -/
inductive SameOutcome : Except CompileFault Compilation → Except CompileFault Compilation → Prop
  | compiled {left right : Compilation} (artifacts : left.artifacts = right.artifacts)
      (logic : ∀ input, left.logic.evaluate input = right.logic.evaluate input)
      (overlaps : left.overlaps.map Overlap.unplaced = right.overlaps.map Overlap.unplaced) :
      SameOutcome (.ok left) (.ok right)
  | overlapping {left right : List Overlap}
      (overlaps : left.map Overlap.unplaced = right.map Overlap.unplaced) :
      SameOutcome (.error (.overlaps left)) (.error (.overlaps right))
  | failed (fault : CompileFault) : SameOutcome (.error fault) (.error fault)

/-- Putting positions in ascending order forgets their order and repetition. -/
theorem ascending_eq_of_mem_iff {left right : List Nat}
    (same : ∀ position, position ∈ left ↔ position ∈ right) : ascending left = ascending right := by
  apply (ascending_pairwise left).eq_of_mem_iff (ascending_pairwise right)
  intro position
  rw [mem_ascending, mem_ascending, same]

/-- What the later stages see of an enabled rule. -/
def ResolvedRule.canonical (rule : ResolvedRule) : ResolvedRule where
  position := 0
  rule := { name := rule.rule.name, pattern := rule.rule.pattern, asserted := [] }
  pattern := rule.pattern
  fields := ascending rule.fields

theorem ResolvedRule.guard_canonical (rule : ResolvedRule) :
    rule.canonical.guard = rule.guard.unplaced := by
  have idempotent : ascending (ascending rule.fields) = ascending rule.fields :=
    ascending_eq_of_mem_iff fun position => mem_ascending position rule.fields
  simp only [guard, canonical, Guard.unplaced, idempotent]

namespace Overlap

theorem ofRules?_canonical (later earlier : ResolvedRule) :
    ofRules? later.canonical earlier.canonical = (ofRules? later earlier).map unplaced := by
  rw [ofRules?, ofRules?, Option.map_map]
  rfl

theorem among_canonical (before rules : List ResolvedRule) :
    among (before.map ResolvedRule.canonical) (rules.map ResolvedRule.canonical) =
      (among before rules).map unplaced := by
  induction rules generalizing before with
  | nil => rfl
  | cons rule rest ih =>
    have shifted : before.map ResolvedRule.canonical ++ [rule.canonical] =
        (before ++ [rule]).map ResolvedRule.canonical := by simp
    have here : (before.map ResolvedRule.canonical).filterMap (ofRules? rule.canonical) =
        (before.filterMap (ofRules? rule)).map unplaced := by
      rw [List.filterMap_map, List.map_filterMap]
      exact List.filterMap_congr fun earlier _ => ofRules?_canonical rule earlier
    rw [List.map_cons, among, among, List.map_append, here, shifted, ih]

end Overlap

/-- Alike rows have one canonical form, wherever they stand. -/
theorem Rule.Alike.canonical_eq {left right : Rule} (alike : left.Alike right) (schema : Schema)
    (place otherPlace : Nat) :
    (left.resolve schema place).canonical = (right.resolve schema otherPlace).canonical := by
  have fields : ascending (left.asserted.filterMap schema.fieldIndex?) =
      ascending (right.asserted.filterMap schema.fieldIndex?) := by
    apply ascending_eq_of_mem_iff
    intro position
    simp only [List.mem_filterMap, alike.asserted]
  simp only [ResolvedRule.canonical, Rule.resolve, alike.name, alike.pattern, fields]

namespace Resolved

theorem map_canonical_enabledRules (resolved : Resolved) :
    resolved.enabledRules.map ResolvedRule.canonical =
      (resolved.table.rules.filter (·.enabled)).map fun row =>
        (row.resolve resolved.table.output 0).canonical := by
  rw [← map_rule_enabledRules, List.map_map]
  apply List.map_congr_left
  intro rule member
  obtain ⟨_, _, _, _, rfl⟩ := (resolved.mem_enabledRules_iff rule).mp member
  rfl

section Alike
variable {left right : Resolved} (alike : left.table.Alike right.table)
include alike

theorem canonical_eq_of_alike :
    left.enabledRules.map ResolvedRule.canonical =
      right.enabledRules.map ResolvedRule.canonical := by
  rw [map_canonical_enabledRules, map_canonical_enabledRules, ← alike.output,
    ← List.forall₂_eq_eq_eq, List.forall₂_map_left_iff, List.forall₂_map_right_iff]
  exact alike.rows.imp fun row other same => same.canonical_eq _ 0 0

theorem overlaps_unplaced_of_alike :
    left.overlaps.map Overlap.unplaced = right.overlaps.map Overlap.unplaced := by
  rw [overlaps, overlaps, ← Overlap.among_canonical, ← Overlap.among_canonical,
    canonical_eq_of_alike alike]

theorem nativeLogic_unplaced_of_alike : left.nativeLogic.unplaced = right.nativeLogic.unplaced := by
  have guards : left.guards.map Guard.unplaced = right.guards.map Guard.unplaced := by
    have forget : Guard.unplaced ∘ ResolvedRule.guard =
        ResolvedRule.guard ∘ ResolvedRule.canonical :=
      funext fun rule => rule.guard_canonical.symm
    rw [Resolved.guards, Resolved.guards, List.map_map, List.map_map, forget, ← List.map_map,
      ← List.map_map, canonical_eq_of_alike alike]
  simp only [Logic.unplaced, nativeLogic, Table.inputWidth, alike.width, alike.output, guards]

end Alike
end Resolved

/-- Evaluation does not look at places. -/
theorem Logic.evaluate_unplaced (logic : Logic) (input : Input) :
    logic.unplaced.evaluate input = logic.evaluate input := by
  have search : logic.unplaced.firstMatch? input =
      (logic.firstMatch? input).map Guard.unplaced := List.find?_map
  rw [evaluate, evaluate, search]
  cases logic.firstMatch? input <;> rfl

/-- Generated files do not show places. -/
theorem Artifacts.generate_unplaced (table : Table) (logic : Logic) (style : Style) :
    generate table logic.unplaced style = generate table logic style := by
  have arms : (logic.guards.map Guard.unplaced).flatMap (SystemVerilog.armLines table style) =
      logic.guards.flatMap (SystemVerilog.armLines table style) := List.flatMap_map ..
  simp only [generate, SystemVerilog.decoderLines, Logic.unplaced, arms, List.length_map]

namespace Table.Alike

variable {left right : Table} (alike : left.Alike right)
include alike

theorem fault?_eq (style : Style) : style.fault? left = style.fault? right := by
  simp only [Style.fault?, alike.output, alike.moduleName]

theorem sameInterface : left.SameInterface right := ⟨alike.moduleName, alike.width, alike.output⟩

end Table.Alike

namespace Resolved

variable {left right : Resolved} (alike : left.table.Alike right.table)
include alike

theorem artifacts_eq_of_alike (style : Style) :
    Artifacts.generate left.table left.nativeLogic style =
      Artifacts.generate right.table right.nativeLogic style :=
  calc
    _ = Artifacts.generate left.table left.nativeLogic.unplaced style :=
      (Artifacts.generate_unplaced ..).symm
    _ = Artifacts.generate right.table left.nativeLogic.unplaced style :=
      alike.sameInterface.generate_eq _ _
    _ = Artifacts.generate right.table right.nativeLogic.unplaced style := by
      rw [nativeLogic_unplaced_of_alike alike]
    _ = _ := Artifacts.generate_unplaced ..

theorem evaluate_eq_of_alike (input : Input) :
    left.nativeLogic.evaluate input = right.nativeLogic.evaluate input := by
  rw [← Logic.evaluate_unplaced, nativeLogic_unplaced_of_alike alike, Logic.evaluate_unplaced]

theorem generate_sameOutcome (config : Config) :
    SameOutcome (left.generate config) (right.generate config) := by
  cases backend : config.backend with
  | native =>
    rw [(left.generate_eq_ok_iff config _).mpr ⟨backend, rfl⟩,
      (right.generate_eq_ok_iff config _).mpr ⟨backend, rfl⟩]
    exact .compiled (artifacts_eq_of_alike alike config.style) (evaluate_eq_of_alike alike)
      (overlaps_unplaced_of_alike alike)
  | espresso =>
    simp only [generate, backend, Backend.compile]
    exact .failed _

theorem compile_sameOutcome (config : Config) :
    SameOutcome (left.compile config) (right.compile config) := by
  have same := overlaps_unplaced_of_alike alike
  have silent : left.overlaps = [] ↔ right.overlaps = [] := by
    rw [← List.map_eq_nil_iff (f := Overlap.unplaced), same, List.map_eq_nil_iff]
  simp only [compile, ne_eq, silent]
  split
  · exact .overlapping same
  · exact generate_sameOutcome alike config

end Resolved

/-- Accepted tables that say the same have the same outcome under every configuration: the same
fault, overlaps between the same rules, or the same files and outputs. -/
theorem Table.alike_compile_sameOutcome (left right : Table) (leftResolved rightResolved : Resolved)
    (leftAccepted : left.resolve = .ok leftResolved)
    (rightAccepted : right.resolve = .ok rightResolved) (alike : left.Alike right)
    (config : Config) : SameOutcome (left.compile config) (right.compile config) := by
  have styled := alike.fault?_eq config.style
  unfold Table.compile
  rw [styled, leftAccepted, rightAccepted]
  cases config.style.fault? right with
  | some fault => exact .failed _
  | none =>
    obtain rfl := (left.resolve_eq_ok_iff leftResolved).mp leftAccepted
    obtain rfl := (right.resolve_eq_ok_iff rightResolved).mp rightAccepted
    exact Resolved.compile_sameOutcome alike config

/-- The layered table without its row that is switched off, with another one in the middle, and with
its fields named in another order and number. -/
def reworkedDraft : Draft where
  moduleName := "dec"
  width := 2
  output := ⟨"ctrl_t", ["load", "store"]⟩
  rules :=
    [⟨"narrow", "11", ["store"], true⟩,
      ⟨"spare", "1.", [], false⟩,
      ⟨"wide", "1.", ["load", "store", "load"], true⟩]

/-- The reworked rows as a resolved table. -/
def reworked : Resolved :=
  ⟨⟨reworkedDraft, reworkedDraft.fault?_eq_none_iff.mp (by decide +kernel)⟩, by decide +kernel⟩

/-- The layered table and its reworked form say the same, so both compile to the same files, and
strict mode refuses both for overlaps that differ in places only. -/
theorem layered_reworked_sameOutcome :
    layered.Alike reworked.table ∧ SameOutcome (layered.compile {}) (reworked.table.compile {}) ∧
    SameOutcome (layered.compile { strict := true })
      (reworked.table.compile { strict := true }) := by
  have alike : layered.Alike reworked.table := by
    refine ⟨rfl, rfl, rfl, .cons ⟨rfl, rfl, fun field => ?_⟩
      (.cons ⟨rfl, rfl, fun field => ?_⟩ .nil)⟩
    · simp
    · simp only [List.mem_cons, List.not_mem_nil, or_false]
      tauto
  have agree := Table.alike_compile_sameOutcome layered reworked.table layeredResolved reworked
    ((layered.resolve_eq_ok_iff layeredResolved).mpr rfl)
    ((reworked.table.resolve_eq_ok_iff reworked).mpr rfl) alike
  exact ⟨alike, agree {}, agree { strict := true }⟩

end DecoderGen
