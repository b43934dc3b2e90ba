import DecoderGen.Proofs.WriteSteps

/-! # Writes that succeed

A completed write leaves the new contents at the targets and nothing at the temporary files;
elsewhere the tree is as it was, except for files that stood at hidden places. A write that succeeded
once therefore succeeds again, and then nothing changes any more.
-/

namespace DecoderGen

/-- The same files and directories at the same places, under the same limits. -/
structure FileTree.Identical (one other : FileTree) : Prop where
  limits : one.limits = other.limits
  nodes : ∀ place, one.get? place = other.get? place

namespace Writing

open FileTree

variable {gone : Place → Prop} {base : FileTree} {directory : String}

/-! ## What a completed write leaves -/

section Completed

variable {artifacts : List Artifact} {list : List Staged} {done placed : List Placed}
  {tree after : FileTree} {place : Place}

theorem Stages.stagedSoFar {earlier : List Staged} (stages : Stages directory artifacts tree after)
    (sofar : StagedSoFar gone base earlier tree) :
    StagedSoFar gone base (earlier ++ artifacts.map (Staged.ofArtifact directory)) after := by
  induction stages generalizing earlier with
  | nil => rwa [List.map_nil, List.append_nil]
  | cons written _ ih =>
    rw [List.map_cons, List.append_cons]
    exact ih (sofar.write written)

theorem Stages.get?_eq (stages : Stages directory artifacts tree after)
    (shape : base.SameShape tree)
    (elsewhere : ∀ artifact ∈ artifacts,
      base.locate (Staged.ofArtifact directory artifact).temporary ≠ .ok place) :
    after.get? place = tree.get? place := by
  induction stages with
  | nil => rfl
  | cons written _ ih =>
    obtain ⟨here, later⟩ := List.forall_mem_cons.mp elsewhere
    rw [ih (shape.trans (sameShape_write written)) later]
    obtain ⟨found, located, free, rfl⟩ := write_eq_ok_iff.mp written
    have differs : place ≠ found := by
      rintro rfl
      exact here (shape.symm.locate located)
    rw [get?_insert _ (ne_root _ free), if_neg differs]

/-- Every temporary file holds the contents of its artifact once all are staged. -/
theorem Stages.holds (stages : Stages directory artifacts tree after) (shape : base.SameShape tree)
    (apart : (artifacts.map (Staged.ofArtifact directory)).Pairwise fun one other =>
      Apart (one.Uses base) (other.Uses base)) :
    ∀ artifact ∈ artifacts, ∀ place,
      base.locate (Staged.ofArtifact directory artifact).temporary = .ok place →
      after.get? place = some (.file artifact.contents.toUTF8) := by
  induction stages with
  | nil => simp
  | cons written later ih =>
    have shape := shape.trans (sameShape_write written)
    obtain ⟨ahead, apart⟩ := List.pairwise_cons.mp apart
    refine List.forall_mem_cons.mpr ⟨fun place located => ?_, ih shape apart⟩
    rw [later.get?_eq shape fun other member again =>
      ahead _ (List.mem_map_of_mem member) place (.inl located) (.inl again)]
    obtain ⟨found, there, free, rfl⟩ := write_eq_ok_iff.mp written
    obtain rfl : place = found := Except.ok.inj ((shape.locate located).symm.trans
      ((sameShape_insert_file free _).locate there))
    rw [get?_insert _ (ne_root _ free), if_pos rfl]

theorem Places.placedSoFar (places : Places list placed tree after)
    (separated : Separated gone base done list) (sofar : PlacedSoFar gone base done list tree) :
    PlacedSoFar gone base (done ++ placed) [] after := by
  induction places generalizing done with
  | nil => rwa [List.append_nil]
  | cons moved _ ih =>
    rw [List.append_cons]
    exact ih (separated.place fun place => placed_uses_of_placing_ok moved)
      (sofar.place separated moved)

/-- Placing touches the replacements it makes and the temporary files only. -/
theorem Places.get?_of_unused (places : Places list placed tree after) (shape : base.SameShape tree)
    (unused : ∀ entry ∈ placed, ¬ entry.Uses base place)
    (unlike : ∀ staged ∈ list, base.locate staged.temporary ≠ .ok place) :
    after.get? place = tree.get? place := by
  induction places with
  | nil => rfl
  | cons moved _ ih =>
    obtain ⟨here, later⟩ := List.forall_mem_cons.mp unused
    obtain ⟨apart, others⟩ := List.forall_mem_cons.mp unlike
    rw [ih (shape.trans (sameShape_placing moved)) later others]
    exact get?_of_placing_ok shape moved here apart

theorem Places.exists_uses (places : Places list placed tree after) :
    ∀ entry ∈ placed, entry.Uses base place → ∃ staged ∈ list, staged.Uses base place := by
  induction places with
  | nil => simp
  | cons moved _ ih =>
    refine List.forall_mem_cons.mpr ⟨fun used => ?_, fun entry member used => ?_⟩
    · exact ⟨_, List.mem_cons_self, placed_uses_of_placing_ok moved used⟩
    · obtain ⟨staged, among, uses⟩ := ih entry member used
      exact ⟨staged, List.mem_cons_of_mem _ among, uses⟩

theorem Places.get?_eq (places : Places list placed tree after) (shape : base.SameShape tree)
    (elsewhere : ∀ staged ∈ list, ¬ staged.Uses base place) : after.get? place = tree.get? place := by
  apply places.get?_of_unused shape
  · intro entry member used
    obtain ⟨staged, among, uses⟩ := places.exists_uses entry member used
    exact elsewhere staged among uses
  · intro staged member located
    exact elsewhere staged member (.inl located)

/-- The target holds what the temporary file held. -/
theorem get?_target_of_placing_ok {staged : Staged} {backup : Option String} {target : Place}
    {contents : ByteArray} (sound : staged.Sound gone base) (shape : base.SameShape tree)
    (moved : PlacingOutcome tree staged (.ok backup) after)
    (located : base.locate staged.temporary = .ok place)
    (held : tree.get? place = some (.file contents))
    (atTarget : base.locate staged.target = .ok target) :
    after.get? target = some (.file contents) := by
  obtain ⟨middle, aside, renamed⟩ := moved
  have unused : ¬ Placed.Uses base ⟨staged.target, backup⟩ place := by
    rintro (onTarget | ⟨kept, rfl, onBackup⟩)
    · exact sound.target_stays place onTarget (sound.temporary_gone place located)
    · obtain ⟨rfl, _⟩ := aside
      exact sound.temporary_ne_backup place located onBackup
  have still := (aside.get?_eq shape unused).trans held
  have shape := shape.trans aside.sameShape
  obtain ⟨source, goal, found, atSource, atGoal, here, free, rfl⟩ := rename_eq_ok_iff.mp renamed
  obtain rfl : place = source := Except.ok.inj ((shape.locate located).symm.trans atSource)
  obtain rfl : target = goal := Except.ok.inj ((shape.locate atTarget).symm.trans atGoal)
  rw [get?_moved here free, if_pos rfl, ← here, still]

/-- Every target holds the contents of its artifact once all files are placed, and the temporary
files are gone. -/
theorem Places.holds
    (places : Places (artifacts.map (Staged.ofArtifact directory)) placed tree after)
    (shape : base.SameShape tree)
    (separated : Separated gone base [] (artifacts.map (Staged.ofArtifact directory)))
    (staged : ∀ artifact ∈ artifacts, ∃ place,
      base.locate (Staged.ofArtifact directory artifact).temporary = .ok place ∧
      tree.get? place = some (.file artifact.contents.toUTF8)) :
    ∀ artifact ∈ artifacts,
      (∀ place, base.locate (Staged.ofArtifact directory artifact).target = .ok place →
        after.get? place = some (.file artifact.contents.toUTF8)) ∧
      ∀ place, base.locate (Staged.ofArtifact directory artifact).temporary = .ok place →
        after.get? place = none := by
  induction artifacts generalizing tree placed with
  | nil => simp
  | cons artifact rest ih =>
    obtain _ | ⟨moved, later⟩ := places
    obtain ⟨sound, others⟩ := List.forall_mem_cons.mp separated.sound
    obtain ⟨ahead, apart⟩ := List.pairwise_cons.mp separated.rest_apart
    obtain ⟨⟨temporary, located, held⟩, waiting⟩ := List.forall_mem_cons.mp staged
    have next := shape.trans (sameShape_placing moved)
    -- What the first file uses, the files behind it leave alone.
    have kept : ∀ place, (Staged.ofArtifact directory artifact).Uses base place →
        after.get? place = _ := fun place used =>
      later.get?_eq next fun other member usedByOther => ahead other member place used usedByOther
    refine List.forall_mem_cons.mpr ⟨⟨fun place atTarget => ?_, fun place again => ?_⟩, ?_⟩
    · rw [kept place (.inr (.inl atTarget))]
      exact get?_target_of_placing_ok sound shape moved located held atTarget
    · rw [kept place (.inl again)]
      exact temporary_absent_of_placing_ok sound shape moved again
    · refine ih later next ⟨others, List.Pairwise.nil, apart, by simp⟩ fun other member => ?_
      obtain ⟨place, there, holds⟩ := waiting other member
      have unused : ¬ (Staged.ofArtifact directory artifact).Uses base place :=
        fun used => ahead _ (List.mem_map_of_mem member) place used (.inl there)
      refine ⟨place, there, ?_⟩
      rw [get?_of_placing_ok shape moved (unused ∘ placed_uses_of_placing_ok moved)
        (unused ∘ .inl), holds]

/-- Backups stand at hidden places, so dropping them gives their places up. -/
theorem preserved_withoutBackups {pending : Place → Prop}
    (preserved : Preserved gone pending base tree)
    (hidden : ∀ entry ∈ placed, ∀ backup, entry.backup = some backup → ∀ place,
      base.locate backup = .ok place → gone place) :
    Preserved gone (fun place => pending place ∧ ∀ entry ∈ placed, ∀ backup,
      entry.backup = some backup → base.locate backup ≠ .ok place) base
        (withoutBackups tree placed) := by
  induction placed generalizing tree pending with
  | nil => exact preserved.mono fun place used => ⟨used, by simp⟩
  | cons entry rest ih =>
    obtain ⟨here, later⟩ := List.forall_mem_cons.mp hidden
    obtain ⟨target, backup⟩ := entry
    cases backup with
    | none =>
      refine (ih preserved later).mono ?_
      rintro place ⟨used, others⟩
      exact ⟨used, List.forall_mem_cons.mpr ⟨by simp, others⟩⟩
    | some backup =>
      have removed := preserved.remove fun place located => .inl (here backup rfl place located)
      refine (ih removed later).mono ?_
      rintro place ⟨⟨used, unlike⟩, others⟩
      refine ⟨used, List.forall_mem_cons.mpr ⟨?_, others⟩⟩
      rintro _ ⟨⟩
      exact unlike

theorem get?_withoutBackups (shape : base.SameShape tree)
    (elsewhere : ∀ entry ∈ placed, ∀ backup, entry.backup = some backup →
      base.locate backup ≠ .ok place) :
    (withoutBackups tree placed).get? place = tree.get? place := by
  induction placed generalizing tree with
  | nil => rfl
  | cons entry rest ih =>
    obtain ⟨here, later⟩ := List.forall_mem_cons.mp elsewhere
    obtain ⟨target, backup⟩ := entry
    cases backup with
    | none => exact ih shape later
    | some backup =>
      refine (ih (shape.trans sameShape_quietly_remove) later).trans ?_
      exact get?_quietly_remove fun located => here backup rfl (shape.symm.locate located)

theorem get?_withoutBackups_eq_none (absent : tree.get? place = none) :
    (withoutBackups tree placed).get? place = none := by
  induction placed generalizing tree with
  | nil => exact absent
  | cons entry rest ih =>
    obtain ⟨target, backup⟩ := entry
    cases backup with
    | none => exact ih absent
    | some backup =>
      apply ih
      cases removed : tree.remove backup with
      | error fault => rwa [quietly_of_error removed]
      | ok after =>
        obtain ⟨found, _, _, held, rfl⟩ := remove_eq_ok_iff.mp removed
        rw [quietly_of_ok removed, get?_erase tree (ne_root tree (by simp [held])), absent, ite_self]

end Completed

/-! ## The whole write -/

section Files

variable {artifacts : Artifacts} {after : FileTree}

/-- The tree after a completed write, next to the one with the directories made for it. -/
structure Completed (directory : String) (artifacts : Artifacts) (base after : FileTree) :
    Prop where
  shape : base.SameShape after
  /-- The targets hold the new contents. -/
  targets : ∀ artifact ∈ artifacts.toList, ∀ place,
    base.locate (Staged.ofArtifact directory artifact).target = .ok place →
      after.get? place = some (.file artifact.contents.toUTF8)
  /-- The temporary files are gone. -/
  temporaries : ∀ artifact ∈ artifacts.toList, ∀ place,
    base.locate (Staged.ofArtifact directory artifact).temporary = .ok place →
      after.get? place = none
  /-- All else is as it was; only a file at a hidden place may be gone. -/
  kept : ∀ place, (∀ artifact ∈ artifacts.toList,
      base.locate (Staged.ofArtifact directory artifact).target ≠ .ok place) →
    after.get? place = base.get? place ∨
      IsHidden base directory artifacts place ∧ after.get? place = none

/-- Once all artifacts are staged, nothing is placed yet. -/
theorem Stages.placedSoFar (stages : Stages directory artifacts.toList base after) :
    PlacedSoFar (IsHidden base directory artifacts) base []
      (artifacts.toList.map (Staged.ofArtifact directory)) after := by
  have initial : StagedSoFar (IsHidden base directory artifacts) base [] base :=
    ⟨Preserved.refl _ _ base, by simp⟩
  have sofar := stages.stagedSoFar initial
  rw [List.nil_append] at sofar
  exact ⟨sofar.preserved.mono fun _ => .inr, by simp, sofar.ready⟩

theorem Writes.takes_temporary (writes : Writes directory artifacts base after) :
    ∀ artifact ∈ artifacts.toList, base.Takes (Staged.ofArtifact directory artifact).temporary := by
  obtain ⟨stages, _⟩ := writes
  exact stages.takes

theorem Writes.takes_target (writes : Writes directory artifacts base after) :
    ∀ artifact ∈ artifacts.toList, base.Takes (Staged.ofArtifact directory artifact).target := by
  obtain ⟨stages, places⟩ := writes
  intro artifact member
  exact stages.sameShape.symm.takes (places.takes _ (List.mem_map_of_mem member))

variable (named : ∀ artifact ∈ artifacts.toList, IsSourceName artifact.fileName)
  (distinct : artifacts.types.fileName ≠ artifacts.decoder.fileName)
include named distinct

theorem Writes.completed (writes : Writes directory artifacts base after) :
    Completed directory artifacts base after := by
  cases writes with | @intro middle full placed stages places =>
  have separated := separated_ofArtifact base directory named distinct
  have staged := stages.placedSoFar
  have sofar := places.placedSoFar separated staged
  rw [List.nil_append] at sofar
  have shape := sofar.preserved.shape
  have hidden : ∀ entry ∈ placed, ∀ backup, entry.backup = some backup → ∀ place,
      base.locate backup = .ok place → IsHidden base directory artifacts place := by
    intro entry member backup keeps place located
    have undoable := sofar.undoable entry member
    rw [Placed.Undoable, keeps] at undoable
    obtain ⟨_, found, _, _, there, lost, _⟩ := undoable
    rwa [Except.ok.inj (located.symm.trans there)]
  have preserved := preserved_withoutBackups sofar.preserved hidden
  have contents := places.holds staged.preserved.shape separated fun artifact member => by
    obtain ⟨place, located, _⟩ := stages.takes artifact member
    exact ⟨place, located, stages.holds (SameShape.refl base) separated.rest_apart artifact member
      place located⟩
  refine ⟨preserved.shape, fun artifact member place located => ?_, fun artifact member place located =>
    ?_, fun place elsewhere => preserved.kept place ?_⟩
  · have visible := (separated.sound _ (List.mem_map_of_mem member)).target_stays place located
    rw [get?_withoutBackups shape fun entry among backup keeps there =>
      visible (hidden entry among backup keeps place there)]
    exact (contents artifact member).1 place located
  · exact get?_withoutBackups_eq_none ((contents artifact member).2 place located)
  · -- What is left in use are the targets.
    rintro ⟨⟨entry, member, onTarget | ⟨backup, keeps, onBackup⟩⟩ | ⟨_, none, _⟩, dropped⟩
    · have among := List.mem_map_of_mem (f := (·.target)) member
      rw [places.targets, List.map_map] at among
      obtain ⟨artifact, listed, same⟩ := List.mem_map.mp among
      rw [← same] at onTarget
      exact elsewhere artifact listed onTarget
    · exact dropped entry member backup keeps onBackup
    · cases none

/-- A write that no directory blocks succeeds. -/
theorem exists_writes
    (clear : ∀ artifact ∈ artifacts.toList, (Staged.ofArtifact directory artifact).Clear base) :
    ∃ after, Writes directory artifacts base after := by
  obtain ⟨middle, stages⟩ := exists_stages fun artifact member => (clear artifact member).temporary
  obtain ⟨placed, full, places⟩ := exists_places (separated_ofArtifact base directory named distinct)
    stages.placedSoFar (List.forall_mem_map.mpr clear)
  exact ⟨_, stages, places⟩

omit distinct in
/-- A write that succeeded met no directory, unless one stands at a backup. -/
theorem Writes.opened (writes : Writes directory artifacts base after)
    (free : ∀ artifact ∈ artifacts.toList, ∀ place,
      base.IsEntry directory ("." ++ artifact.fileName ++ ".bak") place →
        base.get? place ≠ some .directory) :
    ∀ artifact ∈ artifacts.toList, (Staged.ofArtifact directory artifact).Open base := by
  intro artifact member
  have source := named artifact member
  obtain ⟨place, located, clear⟩ := writes.takes_temporary artifact member
  obtain ⟨found, there⟩ := locate_backupOf_of_temporary source located
  exact ⟨⟨place, located, clear⟩, writes.takes_target artifact member, found, there,
    free artifact member found (isEntry_backup source there)⟩

/-- Nothing is left at the hidden places, if no file or directory stood at a backup before. -/
theorem Writes.hidden_absent (writes : Writes directory artifacts base after)
    (free : ∀ artifact ∈ artifacts.toList, ∀ place,
      base.IsEntry directory ("." ++ artifact.fileName ++ ".bak") place → base.get? place = none)
    {place : Place} (hidden : IsHidden base directory artifacts place) :
    after.get? place = none := by
  have completed := writes.completed named distinct
  obtain ⟨artifact, member, ending, known, entry⟩ := hidden
  have source := named artifact member
  simp only [hiddenEndings, List.mem_cons, List.not_mem_nil, or_false] at known
  rcases known with rfl | rfl
  · obtain ⟨temporary, located, _⟩ := writes.takes_temporary artifact member
    rw [entry.unique (isEntry_temporary source located)]
    exact completed.temporaries artifact member temporary located
  · have absent := free artifact member place entry
    refine (completed.kept place fun other among located => ?_).elim (·.trans absent) And.right
    exact (named other among).ne_hidden ".bak"
      ((isEntry_target (named other among) located).name_unique entry)

/-- What a write leaves is left as it is by the same write. -/
theorem Writes.again (writes : Writes directory artifacts base after)
    (free : ∀ artifact ∈ artifacts.toList, ∀ place,
      base.IsEntry directory ("." ++ artifact.fileName ++ ".bak") place → base.get? place = none) :
    ∃ again, Writes directory artifacts after again ∧ after.Identical again := by
  have completed := writes.completed named distinct
  have opened := writes.opened named fun artifact member place entry => by
    simp [free artifact member place entry]
  obtain ⟨again, second⟩ := exists_writes named distinct fun artifact member =>
    ((opened artifact member).of_sameShape completed.shape).clear
  have repeated := second.completed named distinct
  refine ⟨again, second, repeated.shape.limits, fun place => ?_⟩
  by_cases target : ∃ artifact ∈ artifacts.toList,
      after.locate (Staged.ofArtifact directory artifact).target = .ok place
  · obtain ⟨artifact, member, located⟩ := target
    rw [repeated.targets artifact member place located,
      completed.targets artifact member place (completed.shape.symm.locate located)]
  · rcases repeated.kept place fun artifact member located => target ⟨artifact, member, located⟩ with
      same | ⟨⟨artifact, member, ending, known, entry⟩, absent⟩
    · exact same.symm
    · have hidden : IsHidden base directory artifacts place :=
        ⟨artifact, member, ending, known, completed.shape.symm.isEntry entry⟩
      rw [absent, writes.hidden_absent named distinct free hidden]

end Files

end Writing

end DecoderGen
