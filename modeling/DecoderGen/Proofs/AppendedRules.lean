import DecoderGen.Proofs.NativeGuards
import DecoderGen.Overlap

/-! # Rules added at the end of a table

Priority follows the order of rows, and everything that is made of a table is made row by row in
that order. So rows that are added at the end come last everywhere: the guards of the shorter table
and its overlaps are what the longer table starts with, and the added rows decide only inputs that
no row in front of them matches. Those they decide as they would in a table of their own, in which
only their places are different.
-/

namespace DecoderGen

/-- The guard of the same row behind a number of other rows. -/
def Guard.behind (count : Nat) (guard : Guard) : Guard :=
  { guard with position := count + guard.position }

/-- The overlaps of rules and of further rules behind them: first all pairs without the latter. -/
theorem Overlap.among_append (before front back : List ResolvedRule) :
    among before (front ++ back) = among before front ++ among (before ++ front) back := by
  induction front generalizing before with
  | nil => simp [among]
  | cons rule rest ih =>
    rw [List.cons_append, among, among, ih, List.append_assoc]
    simp

/-- Rows behind others keep their order and stand as many places later as there are others. -/
theorem filter_zipIdx_append (front back : List Rule) :
    (front ++ back).zipIdx.filter (·.1.enabled) =
      front.zipIdx.filter (·.1.enabled) ++
        (back.zipIdx.filter (·.1.enabled)).map fun row => (row.1, front.length + row.2) := by
  have shifted : back.zipIdx (0 + front.length) =
      back.zipIdx.map fun row => (row.1, front.length + row.2) := by
    rw [Nat.zero_add, List.zipIdx_eq_map_add]
  rw [List.zipIdx_append, List.filter_append, shifted, List.filter_map]
  rfl

/-- What the deciding guard asserts is all that an evaluation shows of it. -/
theorem Logic.evaluate_eq_elim (logic : Logic) (input : Input) :
    logic.evaluate input = ((logic.firstMatch? input).map (·.asserted)).elim
      (List.replicate logic.fieldCount false)
      fun asserted => setBits asserted.toList (List.replicate logic.fieldCount false) := by
  unfold evaluate
  cases logic.firstMatch? input <;> rfl

theorem Logic.evaluate_eq_of_firstMatch? {left right : Logic} {input : Input}
    (fields : left.fieldCount = right.fieldCount)
    (same : (left.firstMatch? input).map (·.asserted) =
      (right.firstMatch? input).map (·.asserted)) :
    left.evaluate input = right.evaluate input := by
  rw [evaluate_eq_elim, evaluate_eq_elim, fields, same]

/-- A table is another one with rows added at the end. -/
def Table.Appends (longer table : Table) (added : List Rule) : Prop :=
  longer.toDraft = { table.toDraft with rules := table.rules ++ added }

namespace Table.Appends

variable {longer table : Table} {added : List Rule} (appends : longer.Appends table added)
include appends

theorem rules_eq : longer.rules = table.rules ++ added := by
  rw [show longer.toDraft = _ from appends]

theorem output_eq : longer.output = table.output := by rw [show longer.toDraft = _ from appends]

theorem width_eq : longer.width = table.width := by rw [show longer.toDraft = _ from appends]

theorem mem_rules {rule : Rule} (member : rule ∈ added) : rule ∈ longer.rules := by
  rw [appends.rules_eq]
  exact List.mem_append_right _ member

/-- The added rows as a table of their own. -/
def alone : Table where
  toDraft := { table.toDraft with rules := added }
  wellFormed :=
    { table.wellFormed with
      ruleNames := fun rule member =>
        longer.wellFormed.ruleNames rule (appends.mem_rules member)
      patterns := fun rule member => by
        rw [longer.wellFormed.patterns rule (appends.mem_rules member), appends.width_eq] }

theorem ruleFaults_alone (clean : longer.ruleFaults = []) : appends.alone.ruleFaults = [] := by
  apply List.flatMap_eq_nil_iff.mpr
  intro rule member
  have faults := List.flatMap_eq_nil_iff.mp clean rule (appends.mem_rules member)
  rwa [appends.output_eq] at faults

theorem enabledRows_eq :
    longer.enabledRows = table.enabledRows ++
      appends.alone.enabledRows.map fun row => (row.1, table.rules.length + row.2) := by
  unfold Table.enabledRows
  rw [appends.rules_eq, filter_zipIdx_append]
  rfl

end Table.Appends

namespace Resolved

section Appended

variable {resolved longer : Resolved} {added : List Rule}
  (appends : longer.table.Appends resolved.table added)
include appends

/-- The added rows as a resolved table of their own. -/
def alone : Resolved := ⟨appends.alone, appends.ruleFaults_alone longer.noFaults⟩

theorem guards_appended :
    longer.guards =
      resolved.guards ++ (alone appends).guards.map (Guard.behind resolved.table.rules.length) := by
  rw [guards_eq_map, guards_eq_map, guards_eq_map, appends.enabledRows_eq, appends.output_eq,
    List.map_append, List.map_map, List.map_map]
  rfl

theorem overlaps_appended : resolved.overlaps <+: longer.overlaps := by
  have rules : resolved.enabledRules <+: longer.enabledRules := by
    rw [enabledRules_eq_map, enabledRules_eq_map, appends.enabledRows_eq, appends.output_eq,
      List.map_append]
    exact List.prefix_append _ _
  obtain ⟨further, split⟩ := rules
  -- Pairs are listed by their later rule, so none with an added rule comes between the old ones.
  unfold overlaps
  rw [← split, Overlap.among_append]
  exact List.prefix_append _ _

/-- The search goes through the shorter table first. -/
theorem firstMatch?_appended (input : Input) :
    longer.nativeLogic.firstMatch? input =
      (resolved.nativeLogic.firstMatch? input).or
        (((alone appends).nativeLogic.firstMatch? input).map
          (Guard.behind resolved.table.rules.length)) := by
  unfold Logic.firstMatch?
  change longer.guards.find? _ = _
  rw [guards_appended appends, List.find?_append, List.find?_map]
  rfl

/-- An input of the shorter table is decoded by it, and any other input by the added rows. -/
theorem evaluate_appended (input : Input) :
    longer.nativeLogic.evaluate input =
      if (resolved.nativeLogic.firstMatch? input).isSome then resolved.nativeLogic.evaluate input
      else (alone appends).nativeLogic.evaluate input := by
  have search := firstMatch?_appended appends input
  have fields : longer.nativeLogic.fieldCount = resolved.nativeLogic.fieldCount :=
    congrArg (·.fields.length) appends.output_eq
  split
  · next matched =>
    obtain ⟨guard, found⟩ := Option.isSome_iff_exists.mp matched
    refine Logic.evaluate_eq_of_firstMatch? fields ?_
    rw [search, found, Option.some_or]
  · next unmatched =>
    rw [Option.not_isSome_iff_eq_none] at unmatched
    refine Logic.evaluate_eq_of_firstMatch? fields ?_
    rw [search, unmatched, Option.none_or, Option.map_map]
    rfl

end Appended
end Resolved

/-- Rows added at the end of a table change nothing that was there: its guards and its overlaps come
first, and what it matched is matched and decoded as before. Every other input is decoded as by the
added rows alone, whose guards are the same up to their places. -/
theorem Table.appended_rules_come_last (table longer : Table) (resolved longerResolved : Resolved)
    (added : List Rule) (accepted : table.resolve = .ok resolved)
    (longerAccepted : longer.resolve = .ok longerResolved) (appends : longer.Appends table added) :
    ∃ logic longerLogic, Backend.native.compile resolved = .ok logic ∧
      Backend.native.compile longerResolved = .ok longerLogic ∧
      logic.guards <+: longerLogic.guards ∧
      resolved.overlaps <+: longerResolved.overlaps ∧
      (∀ input guard, logic.firstMatch? input = some guard →
        longerLogic.firstMatch? input = some guard ∧
          longerLogic.evaluate input = logic.evaluate input) ∧
      ∃ alone aloneResolved aloneLogic,
        Table.ofDraft { table.toDraft with rules := added } = .ok alone ∧
        alone.resolve = .ok aloneResolved ∧
        Backend.native.compile aloneResolved = .ok aloneLogic ∧
        ∀ input, logic.firstMatch? input = none →
          longerLogic.firstMatch? input =
              (aloneLogic.firstMatch? input).map (Guard.behind table.rules.length) ∧
            longerLogic.evaluate input = aloneLogic.evaluate input := by
  obtain rfl := (table.resolve_eq_ok_iff resolved).mp accepted
  obtain rfl := (longer.resolve_eq_ok_iff longerResolved).mp longerAccepted
  refine ⟨_, _, Backend.compile_native resolved, Backend.compile_native longerResolved, ?_,
    Resolved.overlaps_appended appends, ?_, _, Resolved.alone appends, _,
    (Table.ofDraft_eq_ok_iff _ appends.alone).mpr rfl, (Table.resolve_eq_ok_iff _ _).mpr rfl,
    Backend.compile_native _, ?_⟩
  · change resolved.guards <+: longerResolved.guards
    rw [Resolved.guards_appended appends]
    exact List.prefix_append _ _
  · intro input guard found
    rw [Resolved.firstMatch?_appended appends, Resolved.evaluate_appended appends, found]
    exact ⟨rfl, rfl⟩
  · intro input unmatched
    rw [Resolved.firstMatch?_appended appends, Resolved.evaluate_appended appends, unmatched]
    exact ⟨rfl, rfl⟩

/-- Rows to add to the layered ones: one that is switched off and one that matches every input. -/
def spareRows : List Rule := [⟨"idle", "1.", [], false⟩, ⟨"spare", "..", ["load"], true⟩]

/-- The layered rows with the spare ones at the end. -/
def extendedDraft : Draft := { layeredDraft with rules := layeredDraft.rules ++ spareRows }

/-- The extended rows as a resolved table. -/
def extended : Resolved :=
  ⟨⟨extendedDraft, extendedDraft.fault?_eq_none_iff.mp (by decide +kernel)⟩, by decide +kernel⟩

/-- The spare row overlaps the others and takes over only what they leave: an input that the layered
rows match is decoded as before, and another one as by the spare rows alone. -/
theorem spare_rows_come_last :
    extended.table.Appends layered spareRows ∧ layeredResolved.overlaps <+: extended.overlaps ∧
      extended.nativeLogic.evaluate [true, true] =
        layeredResolved.nativeLogic.evaluate [true, true] ∧
      ∃ alone aloneResolved aloneLogic,
        Table.ofDraft { layeredDraft with rules := spareRows } = .ok alone ∧
        alone.resolve = .ok aloneResolved ∧ Backend.native.compile aloneResolved = .ok aloneLogic ∧
        extended.nativeLogic.evaluate [false, true] = aloneLogic.evaluate [false, true] := by
  have appends : extended.table.Appends layered spareRows := rfl
  obtain ⟨logic, longerLogic, compiled, longerCompiled, _, overlaps, kept, alone, aloneResolved,
    aloneLogic, isTable, aloneAccepted, aloneCompiled, rest⟩ :=
    Table.appended_rules_come_last layered extended.table layeredResolved extended spareRows
      ((layered.resolve_eq_ok_iff _).mpr rfl) ((extended.table.resolve_eq_ok_iff _).mpr rfl) appends
  obtain rfl := Except.ok.inj ((Backend.compile_native layeredResolved).symm.trans compiled)
  obtain rfl := Except.ok.inj ((Backend.compile_native extended).symm.trans longerCompiled)
  refine ⟨appends, overlaps, ?_, alone, aloneResolved, aloneLogic, isTable, aloneAccepted,
    aloneCompiled, ?_⟩
  · exact (kept [true, true] ⟨1, "narrow", ⟨[.one, .one]⟩, #[1]⟩ (by decide +kernel)).2
  · exact (rest [false, true] (by decide +kernel)).2

end DecoderGen
