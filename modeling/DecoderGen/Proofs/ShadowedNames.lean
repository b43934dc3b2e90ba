import DecoderGen.Proofs.ShadowedRules

/-! # The names of shadowed rules

The names are read off the overlaps that call their later row shadowed, and only equal neighbours
are merged. That is enough: overlaps come by their later row, so all entries for one row stand side
by side, however many rows cover it and whatever else it overlaps. The names are therefore those of
rows in table order, and with distinct names each covered row is named once.
-/

namespace DecoderGen

/-- An enabled row behind an enabled one that matches every input it matches. -/
def Table.Covered (table : Table) (row : Rule × Nat) : Prop :=
  row ∈ table.enabledRows ∧ ∃ other ∈ table.enabledRows, other.2 < row.2 ∧
    ∀ input, row.1.Matches input → other.1.Matches input

namespace Overlap

@[simp] theorem mem_collapse_iff (name : String) (names : List String) :
    name ∈ collapse names ↔ name ∈ names := by
  fun_induction collapse names with
  | case1 => rfl
  | case2 => rfl
  | case3 first rest ih => simp [ih]
  | case4 first second rest distinct ih => simp only [List.mem_cons, ih]

theorem collapse_cons_sublist (first : String) (names : List String) :
    (collapse (first :: names)).Sublist (first :: collapse names) := by
  cases names with
  | nil => exact List.Sublist.refl _
  | cons second rest =>
    rw [collapse]
    split
    · exact List.sublist_cons_self _ _
    · exact List.Sublist.refl _

/-- A run of one name adds that name at most once to what is left of the names behind it. -/
theorem collapse_replicate_append_sublist (count : Nat) (name : String) (names : List String) :
    (collapse (List.replicate count name ++ names)).Sublist (name :: collapse names) := by
  induction count with
  | zero => exact List.sublist_cons_self _ _
  | succ count ih =>
    cases count with
    | zero => exact collapse_cons_sublist name names
    | succ count =>
      rw [List.replicate_succ, List.replicate_succ, List.cons_append, List.cons_append, collapse,
        if_pos rfl]
      exact ih

/-- All entries with one later rule bear its name. -/
theorem later_filterMap_ofRules? (later : ResolvedRule) (before : List ResolvedRule) :
    ∃ count, ((before.filterMap (ofRules? later)).filter (·.shadowed)).map (·.later) =
      List.replicate count later.rule.name := by
  refine ⟨_, List.eq_replicate_iff.mpr ⟨rfl, fun name member => ?_⟩⟩
  obtain ⟨overlap, kept, rfl⟩ := List.mem_map.mp member
  obtain ⟨earlier, _, found⟩ := List.mem_filterMap.mp (List.mem_filter.mp kept).1
  obtain ⟨_, rfl⟩ := (ofRules?_eq_some_iff later earlier overlap).mp found
  rfl

/-- The names of shadowed rules come in the order of the rules. -/
theorem shadowedNames_among_sublist (before rules : List ResolvedRule) :
    (shadowedNames (among before rules)).Sublist (rules.map (·.rule.name)) := by
  induction rules generalizing before with
  | nil => exact List.Sublist.refl _
  | cons rule rest ih =>
    obtain ⟨count, run⟩ := later_filterMap_ofRules? rule before
    rw [shadowedNames, among, List.filter_append, List.map_append, run, List.map_cons]
    exact (collapse_replicate_append_sublist count _ _).trans ((ih _).cons_cons _)

theorem mem_shadowedNames_iff (name : String) (overlaps : List Overlap) :
    name ∈ shadowedNames overlaps ↔
      ∃ overlap ∈ overlaps, overlap.shadowed = true ∧ overlap.later = name := by
  simp only [shadowedNames, mem_collapse_iff, List.mem_map, List.mem_filter, and_assoc]

end Overlap

namespace Resolved

variable (resolved : Resolved)

/-- A row that another one covers overlaps it, since every pattern has inputs. -/
theorem mem_shadowedNames_of_covered {row : Rule × Nat} (covered : resolved.table.Covered row) :
    row.1.name ∈ Overlap.shadowedNames resolved.overlaps := by
  obtain ⟨enabled, other, otherEnabled, before, matchesAll⟩ := covered
  obtain ⟨listed, active⟩ := (resolved.table.mem_enabledRows_iff row).mp enabled
  obtain ⟨otherListed, otherActive⟩ := (resolved.table.mem_enabledRows_iff other).mp otherEnabled
  obtain ⟨input, agrees⟩ := resolved.exists_matches listed
  have width := resolved.table.length_of_matches listed agrees
  have collide : resolved.table.Collide other.2 row.2 other.1 row.1 :=
    ⟨before, otherListed, listed, otherActive, active, input, width, matchesAll input agrees,
      agrees⟩
  obtain ⟨overlap, member, _, describes⟩ := resolved.exists_overlap_of_collide collide
  exact (Overlap.mem_shadowedNames_iff _ _).mpr
    ⟨overlap, member, describes.shadowed.mpr matchesAll, describes.later⟩

theorem mem_shadowedNames_iff_covered (name : String) :
    name ∈ Overlap.shadowedNames resolved.overlaps ↔
      ∃ row, resolved.table.Covered row ∧ row.1.name = name := by
  constructor
  · rw [Overlap.mem_shadowedNames_iff]
    rintro ⟨overlap, member, shadowed, rfl⟩
    obtain ⟨earlier, later, left, right, collide, found⟩ :=
      (resolved.mem_overlaps_iff overlap).mp member
    have describes := resolved.describes_of_ofRules? collide.left_listed collide.right_listed found
    have leftEnabled := (resolved.table.mem_enabledRows_iff (left, earlier)).mpr
      ⟨collide.left_listed, collide.left_enabled⟩
    have rightEnabled := (resolved.table.mem_enabledRows_iff (right, later)).mpr
      ⟨collide.right_listed, collide.right_enabled⟩
    exact ⟨(right, later), ⟨rightEnabled, (left, earlier), leftEnabled, collide.before,
      describes.shadowed.mp shadowed⟩, describes.later.symm⟩
  · rintro ⟨row, covered, rfl⟩
    exact resolved.mem_shadowedNames_of_covered covered

theorem shadowedNames_sublist :
    (Overlap.shadowedNames resolved.overlaps).Sublist
      (resolved.table.enabledRows.map (·.1.name)) := by
  have names : resolved.enabledRules.map (·.rule.name) =
      resolved.table.enabledRows.map (·.1.name) := by
    rw [enabledRules_eq_map, List.map_map]
    rfl
  rw [← names]
  exact Overlap.shadowedNames_among_sublist [] resolved.enabledRules

/-- The names of shadowed rules are the names of the covered rows. If no two enabled rows share a
name, they are the covered rows in table order, each one once. -/
theorem shadowedNames_name_covered_rows :
    let names := Overlap.shadowedNames resolved.overlaps
    (∀ name, name ∈ names ↔ ∃ row, resolved.table.Covered row ∧ row.1.name = name) ∧
    ((resolved.table.enabledRows.map (·.1.name)).Nodup →
      names.Nodup ∧ ∃ rows : List (Rule × Nat), rows.Sublist resolved.table.enabledRows ∧
        (∀ row, row ∈ rows ↔ resolved.table.Covered row) ∧ names = rows.map (·.1.name)) := by
  refine ⟨resolved.mem_shadowedNames_iff_covered, fun distinct => ?_⟩
  have sublist := resolved.shadowedNames_sublist
  refine ⟨sublist.nodup distinct, ?_⟩
  obtain ⟨rows, among, names⟩ := List.sublist_map_iff.mp sublist
  have sameRow := List.inj_on_of_nodup_map distinct
  refine ⟨rows, among, fun row => ⟨fun member => ?_, fun covered => ?_⟩, names⟩
  · -- The name of the row stands for a covered row, and no other row has that name.
    have named : row.1.name ∈ Overlap.shadowedNames resolved.overlaps :=
      names ▸ List.mem_map_of_mem member
    obtain ⟨other, covered, same⟩ := (resolved.mem_shadowedNames_iff_covered _).mp named
    rwa [sameRow covered.1 (among.subset member) same] at covered
  · have named := resolved.mem_shadowedNames_of_covered covered
    rw [names] at named
    obtain ⟨other, member, same⟩ := List.mem_map.mp named
    rwa [sameRow (among.subset member) covered.1 same] at member

end Resolved

/-- Two rows that share some of their inputs, a row that both cover, a row that is switched off, and
a row that one of the first two covers while the other only shares inputs with it. -/
def crossedDraft : Draft where
  moduleName := "dec"
  width := 3
  output := ⟨"ctrl_t", ["load"]⟩
  rules :=
    [⟨"high", "1..", ["load"], true⟩,
      ⟨"odd", "..1", [], true⟩,
      ⟨"both", "1.1", ["load"], true⟩,
      ⟨"off", "...", [], false⟩,
      ⟨"again", "1..", [], true⟩]

/-- The crossed rows as a resolved table. -/
def crossed : Resolved :=
  ⟨⟨crossedDraft, crossedDraft.fault?_eq_none_iff.mp (by decide +kernel)⟩, by decide +kernel⟩

/-- Six pairs of the crossed rows overlap, three of them with a covered row, and two rows are
named. -/
theorem crossed_covered_rows_named :
    crossed.overlaps.length = 6 ∧
    Overlap.shadowedNames crossed.overlaps = ["both", "again"] ∧
    ∃ rows : List (Rule × Nat), rows.Sublist crossed.table.enabledRows ∧
      (∀ row, row ∈ rows ↔ crossed.table.Covered row) ∧
      ["both", "again"] = rows.map (·.1.name) := by
  have names : Overlap.shadowedNames crossed.overlaps = ["both", "again"] := by decide +kernel
  have distinct : (crossed.table.enabledRows.map (·.1.name)).Nodup := by decide +kernel
  obtain ⟨_, rows, among, covered, same⟩ := crossed.shadowedNames_name_covered_rows.2 distinct
  exact ⟨by decide +kernel, names, rows, among, covered, names ▸ same⟩

end DecoderGen
