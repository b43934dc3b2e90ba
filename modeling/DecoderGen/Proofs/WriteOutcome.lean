import DecoderGen.Proofs.CompletedWrite

/-! # When a write succeeds and what it leaves

A write goes through exactly if its directory can be made and no directory stands at the two targets,
at their temporary files, or at the backup of a target that is there already. What it leaves is then
known at every place: the targets hold the new contents, the temporary files and the backups of old
targets are gone, and all else is as it was.
-/

namespace DecoderGen

namespace FileTree

variable {tree after : FileTree} {path directory name : String} {place : Place}

/-- No limit of the tree refuses a path, neither as a whole nor for one of its names. A tree without
limits allows every path. -/
def Allows (tree : FileTree) (path : String) : Prop :=
  tree.refusesPath path = false ∧ ∀ name ∈ Path.names path, tree.refusesName name = false

theorem Within.allows {other : FileTree} (within : tree.Within other) (allowed : tree.Allows path) :
    other.Allows path := by
  simpa only [Allows, refusesPath, refusesName, within.limits] using allowed

/-- With a path to an entry of a directory, paths to entries with shorter names are allowed. -/
theorem Allows.join_of_le {entry : String} (allowed : tree.Allows (Path.join directory entry))
    (plainEntry : Path.Plain entry) (plain : Path.Plain name)
    (size : name.utf8ByteSize ≤ entry.utf8ByteSize) : tree.Allows (Path.join directory name) := by
  obtain ⟨above, _, joined⟩ := Path.names_join directory
  obtain ⟨short, names⟩ := allowed
  rw [joined entry plainEntry] at names
  constructor
  · rw [Path.eq_opening_append (joined entry plainEntry)] at short
    rw [Path.eq_opening_append (joined name plain)]
    apply refusesPath_of_le short
    simp only [String.utf8ByteSize_append]
    omega
  · rw [joined name plain]
    intro part member
    rcases List.mem_append.mp member with climbed | last
    · exact names part (List.mem_append_left _ climbed)
    · rw [List.mem_singleton.mp last]
      exact refusesName_of_le (names entry (by simp)) size

/-- A directory that was created can be reached, by a path without a NUL. -/
theorem reached_of_created (success : tree.createDirectories path = (.ok (), after)) :
    '\x00' ∉ path.toList ∧
      ∃ above, after.walk [] (Path.names path) = .ok above ∧ after.get? above = some .directory := by
  by_cases named : path = ""
  · subst named
    exact ⟨by simp, [], rfl, rfl⟩
  · obtain ⟨sound, leads⟩ := leads_of_createDirectories named success
    exact ⟨(pathFault?_eq_none_iff.mp sound).1, leadsToDirectory_eq_true_iff.mp leads⟩

/-- The path of an entry leads to it, unless it is refused for its length. -/
theorem IsEntry.locate (entry : tree.IsEntry directory name place) (plain : Path.Plain name)
    (clean : '\x00' ∉ directory.toList) (cleanName : '\x00' ∉ name.toList)
    (allowed : tree.Allows (Path.join directory name)) :
    tree.locate (Path.join directory name) = .ok place := by
  obtain ⟨above, listed, joined⟩ := Path.names_join directory
  obtain ⟨found, reached, here, rfl⟩ := entry
  have climbed : tree.walk [] above = .ok found := by
    rcases listed with same | slashed
    · rwa [← same]
    · rw [slashed, walk_append_eq_ok_iff] at reached
      obtain ⟨middle, front, back⟩ := reached
      rw [front, eq_of_walk_stays (by simp [Path.stays]) back]
  have sound : tree.pathFault? (Path.join directory name) = none := by
    refine pathFault?_eq_none_iff.mpr ⟨?_, allowed.1, ?_⟩
    · intro nul
      rcases Path.mem_join nul with inside | slash | last
      · exact clean inside
      · cases slash
      · exact cleanName last
    · intro empty
      have moves := plain.moves
      rw [Path.eq_opening_append (joined name plain)] at empty
      rw [(String.append_eq_empty_iff.mp empty).2] at moves
      cases moves
  have last : tree.refusesName name = false := allowed.2 name (by simp [joined name plain])
  rw [FileTree.locate, sound]
  simp only
  rw [joined name plain, walk_append_eq_ok_iff]
  refine ⟨found, climbed, ?_⟩
  rw [walk_singleton, step_eq_ok_iff plain]
  exact ⟨here, last, rfl⟩

end FileTree

namespace Writing

open FileTree

variable {gone : Place → Prop} {base : FileTree} {directory : String}

/-! ## The replacements of a write -/

section Replacements

variable {list : List Staged} {done placed : List Placed} {tree after : FileTree} {place : Place}

/-- What is placed for a staged file: its target, with a backup where a file stands already. -/
def Staged.placedOn (tree : FileTree) (staged : Staged) : Placed :=
  ⟨staged.target, if tree.isFile staged.target then some (backupOf staged.target) else none⟩

theorem backup_placedOn_eq_some_iff {staged : Staged} {backup : String} :
    (staged.placedOn tree).backup = some backup ↔
      tree.isFile staged.target = true ∧ backup = backupOf staged.target := by
  unfold Staged.placedOn
  split
  · next standing => simp [standing, eq_comm]
  · next free => simp [free]

theorem placedOn_of_placing_ok {staged : Staged} {backup : Option String}
    (moved : PlacingOutcome tree staged (.ok backup) after) :
    ⟨staged.target, backup⟩ = staged.placedOn tree := by
  obtain ⟨middle, aside, _⟩ := moved
  unfold Staged.placedOn
  cases backup with
  | none => rw [aside.1]; rfl
  | some kept =>
    obtain ⟨rfl, renamed⟩ := aside
    obtain ⟨target, _, contents, located, _, held, _, _⟩ := rename_eq_ok_iff.mp renamed
    rw [isFile_eq_true_iff.mpr ⟨target, contents, located, held⟩]
    rfl

/-- Which targets get a backup is settled before the write: no file placed before another touches
the target of the other. -/
theorem Places.placed_eq (places : Places list placed tree after)
    (separated : Separated gone base done list) (sofar : PlacedSoFar gone base done list tree) :
    placed = list.map (Staged.placedOn base) := by
  induction places generalizing done with
  | nil => rfl
  | @cons staged backup _ _ _ _ _ moved _ ih =>
    have unchanged (place : Place) (located : base.locate staged.target = .ok place) :=
      sofar.target_unchanged separated located
    have standing := sofar.preserved.shape.isFile_eq unchanged
    have later := ih (separated.place fun place => placed_uses_of_placing_ok moved)
      (sofar.place separated moved)
    rw [List.map_cons, later, placedOn_of_placing_ok moved, Staged.placedOn, Staged.placedOn, standing]

theorem Places.takes_backup (places : Places list placed tree after) :
    ∀ entry ∈ placed, ∀ backup, entry.backup = some backup → tree.Takes backup := by
  induction places with
  | nil => simp
  | @cons staged backup _ _ _ _ _ moved _ ih =>
    refine List.forall_mem_cons.mpr ⟨fun kept keeps => ?_, fun entry member kept keeps => ?_⟩
    · obtain ⟨_, aside, _⟩ := moved
      cases keeps
      obtain ⟨rfl, renamed⟩ := aside
      exact takes_of_rename renamed
    · exact (sameShape_placing moved).symm.takes (ih entry member kept keeps)

/-- Where a backup was, nothing is left. -/
theorem get?_withoutBackups_of_backup {entry : Placed} {backup : String} (shape : base.SameShape tree)
    (member : entry ∈ placed) (keeps : entry.backup = some backup)
    (located : base.locate backup = .ok place) (free : base.get? place ≠ some .directory) :
    (withoutBackups tree placed).get? place = none := by
  induction placed generalizing tree with
  | nil => cases member
  | cons first rest ih =>
    obtain ⟨target, kept⟩ := first
    rcases List.mem_cons.mp member with rfl | later
    · cases keeps
      rw [withoutBackups]
      apply get?_withoutBackups_eq_none
      have removed : base.SameShape (tree.quietly (·.remove backup)) :=
        shape.trans sameShape_quietly_remove
      cases found : (tree.quietly (·.remove backup)).get? place with
      | none => rfl
      | some node =>
        cases node with
        | file contents => exact absurd found (quietly_remove_ne_file (shape.locate located) contents)
        | directory => exact absurd ((removed.directories place).mpr found) free
    · cases kept with
      | none => exact ih shape later
      | some other => exact ih (shape.trans sameShape_quietly_remove) later

end Replacements

/-! ## The whole write -/

/-- The replacements that a write makes. -/
def placements (base : FileTree) (directory : String) (artifacts : Artifacts) : List Placed :=
  artifacts.toList.map fun artifact => (Staged.ofArtifact directory artifact).placedOn base

section Outcome

variable {artifacts : Artifacts} {after : FileTree} {place : Place}
  (named : ∀ artifact ∈ artifacts.toList, IsSourceName artifact.fileName)
  (distinct : artifacts.types.fileName ≠ artifacts.decoder.fileName)
include named distinct

/-- The steps of a write, with the replacements as they are settled beforehand. -/
theorem Writes.steps (writes : Writes directory artifacts base after) :
    ∃ middle full, Stages directory artifacts.toList base middle ∧
      Places (artifacts.toList.map (Staged.ofArtifact directory))
        (placements base directory artifacts) middle full ∧
      after = withoutBackups full (placements base directory artifacts) := by
  obtain @⟨middle, full, placed, stages, places⟩ := writes
  have settled : placed = placements base directory artifacts := by
    rw [places.placed_eq (separated_ofArtifact base directory named distinct) stages.placedSoFar,
      List.map_map]
    rfl
  rw [settled] at places ⊢
  exact ⟨middle, full, stages, places, rfl⟩

/-- A write that succeeded met no directory. -/
theorem Writes.clear (writes : Writes directory artifacts base after) :
    ∀ artifact ∈ artifacts.toList, (Staged.ofArtifact directory artifact).Clear base := by
  intro artifact member
  refine ⟨writes.takes_temporary artifact member, writes.takes_target artifact member, ?_⟩
  intro standing
  obtain ⟨_, _, stages, places, _⟩ := writes.steps named distinct
  apply stages.sameShape.symm.takes
  apply places.takes_backup _ (List.mem_map_of_mem member)
  exact backup_placedOn_eq_some_iff.mpr ⟨standing, rfl⟩

/-- A write touches the temporary files and the replacements of its targets only. -/
theorem Writes.get?_of_unused (writes : Writes directory artifacts base after)
    (unlike : ∀ artifact ∈ artifacts.toList,
      base.locate (Staged.ofArtifact directory artifact).temporary ≠ .ok place)
    (unused : ∀ artifact ∈ artifacts.toList,
      ¬ ((Staged.ofArtifact directory artifact).placedOn base).Uses base place) :
    after.get? place = base.get? place := by
  obtain ⟨middle, full, stages, places, rfl⟩ := writes.steps named distinct
  have shape := stages.sameShape
  rw [get?_withoutBackups (shape.trans places.sameShape), places.get?_of_unused shape,
    stages.get?_eq (SameShape.refl base) unlike]
  · exact List.forall_mem_map.mpr unused
  · exact List.forall_mem_map.mpr unlike
  · intro entry member backup keeps located
    obtain ⟨artifact, among, rfl⟩ := List.mem_map.mp member
    exact unused artifact among (.inr ⟨backup, keeps, located⟩)

/-- The backup of a target is gone if a file stood at the target, and is left alone otherwise. -/
theorem Writes.get?_backup (writes : Writes directory artifacts base after) {artifact : Artifact}
    (member : artifact ∈ artifacts.toList)
    (located : base.locate (backupOf (Staged.ofArtifact directory artifact).target) = .ok place) :
    after.get? place =
      if base.isFile (Staged.ofArtifact directory artifact).target then none
      else base.get? place := by
  have entry := isEntry_backup (named artifact member) located
  split
  · next standing =>
    have free : base.get? place ≠ some .directory := by
      obtain ⟨found, there, free⟩ := (writes.clear named distinct artifact member).backup standing
      rwa [Except.ok.inj (located.symm.trans there)]
    obtain ⟨middle, full, stages, places, rfl⟩ := writes.steps named distinct
    exact get?_withoutBackups_of_backup (stages.sameShape.trans places.sameShape)
      (List.mem_map_of_mem member) (backup_placedOn_eq_some_iff.mpr ⟨standing, rfl⟩) located free
  · next absent =>
    apply writes.get?_of_unused named distinct
    · intro other among temporary
      have same := entry.name_unique (isEntry_temporary (named other among) temporary)
      have endings := (hidden_inj (by simp) same).2
      simp at endings
    · rintro other among (target | ⟨backup, keeps, again⟩)
      · have same := (isEntry_target (named other among) target).name_unique entry
        exact (named other among).ne_hidden ".bak" same
      · -- A backup at the same place is that of a file of the same name.
        obtain ⟨standing, rfl⟩ := backup_placedOn_eq_some_iff.mp keeps
        have same := entry.name_unique (isEntry_backup (named other among) again)
        rw [Staged.ofArtifact, ← (hidden_inj rfl same).1] at standing
        exact absent standing

end Outcome

/-! ## In terms of the output directory -/

section Entries

variable {artifact : Artifact} {artifacts : Artifacts}

/-- No directory stands at the target of an artifact, at its temporary file or, where a file stands
at the target, at its backup. -/
structure Unblocked (tree : FileTree) (directory : String) (artifact : Artifact) : Prop where
  target : ∀ place, tree.IsEntry directory artifact.fileName place →
    tree.get? place ≠ some .directory
  temporary : ∀ place, tree.IsEntry directory ("." ++ artifact.fileName ++ ".tmp") place →
    tree.get? place ≠ some .directory
  backup : ∀ target place contents, tree.IsEntry directory artifact.fileName target →
    tree.get? target = some (.file contents) →
    tree.IsEntry directory ("." ++ artifact.fileName ++ ".bak") place →
      tree.get? place ≠ some .directory

/-- The tree after a write that succeeded, next to the one before it and to the one with the
directories that were made for the output. -/
structure Replaced (directory : String) (artifacts : Artifacts) (before made after : FileTree) :
    Prop where
  /-- Making directories adds directories and nothing else. -/
  grown : before.Grown made
  /-- The output directory is there. -/
  reached : ∃ above, made.walk [] (Path.names directory) = .ok above ∧
    made.get? above = some .directory
  /-- Both targets hold the new contents. -/
  targets : ∀ artifact ∈ artifacts.toList, ∀ place,
    made.IsEntry directory artifact.fileName place →
      after.get? place = some (.file artifact.contents.toUTF8)
  /-- The temporary files are gone. -/
  temporaries : ∀ artifact ∈ artifacts.toList, ∀ place,
    made.IsEntry directory ("." ++ artifact.fileName ++ ".tmp") place → after.get? place = none
  /-- A backup is gone if its target was there before, and untouched otherwise. -/
  backups : ∀ artifact ∈ artifacts.toList, ∀ target place,
    made.IsEntry directory artifact.fileName target →
    made.IsEntry directory ("." ++ artifact.fileName ++ ".bak") place →
      after.get? place = if (before.get? target).isSome then none else made.get? place
  /-- All else is as it was. -/
  elsewhere : ∀ place, (∀ artifact ∈ artifacts.toList,
      ¬ made.IsEntry directory artifact.fileName place) →
    ¬ IsHidden made directory artifacts place → after.get? place = made.get? place

/-- A file that nothing blocks can be placed, unless its paths are refused for their length. -/
theorem Unblocked.clear (unblocked : Unblocked base directory artifact)
    (source : IsSourceName artifact.fileName) (clean : '\x00' ∉ directory.toList)
    (reached : ∃ above, base.walk [] (Path.names directory) = .ok above ∧
      base.get? above = some .directory)
    (allowed : base.Allows (Path.join directory ("." ++ artifact.fileName ++ ".tmp"))) :
    (Staged.ofArtifact directory artifact).Clear base := by
  obtain ⟨above, walked, here⟩ := reached
  have plain := source.plain_hidden ".tmp" (by simp)
  have cleanHidden : '\x00' ∉ ("." ++ artifact.fileName ++ ".tmp").toList := by simp [source.clean]
  have temporary : base.locate (Staged.ofArtifact directory artifact).temporary =
      .ok (above ++ ["." ++ artifact.fileName ++ ".tmp"]) :=
    IsEntry.locate ⟨above, walked, here, rfl⟩ plain clean cleanHidden allowed
  have target : base.locate (Staged.ofArtifact directory artifact).target =
      .ok (above ++ [artifact.fileName]) := by
    refine IsEntry.locate ⟨above, walked, here, rfl⟩ source.plain clean source.clean ?_
    apply allowed.join_of_le plain source.plain
    simp only [String.utf8ByteSize_append]
    omega
  refine ⟨⟨_, temporary, unblocked.temporary _ (isEntry_temporary source temporary)⟩,
    ⟨_, target, unblocked.target _ (isEntry_target source target)⟩, fun standing => ?_⟩
  obtain ⟨place, contents, located, held⟩ := isFile_eq_true_iff.mp standing
  obtain ⟨found, there⟩ := locate_backupOf_of_temporary source temporary
  exact ⟨found, there, unblocked.backup place found contents (isEntry_target source located) held
    (isEntry_backup source there)⟩

/-- A path that leads to an entry and takes a file leads to the place of the entry. -/
theorem locate_of_isEntry {path name : String} {place : Place}
    (leads : ∀ found, base.locate path = .ok found → base.IsEntry directory name found)
    (takes : base.Takes path) (entry : base.IsEntry directory name place) :
    base.locate path = .ok place ∧ base.get? place ≠ some .directory := by
  obtain ⟨found, located, free⟩ := takes
  rw [entry.unique (leads found located)]
  exact ⟨located, free⟩

theorem unblocked_of_clear (source : IsSourceName artifact.fileName)
    (clear : (Staged.ofArtifact directory artifact).Clear base) :
    Unblocked base directory artifact := by
  have atTarget (place : Place) :=
    @locate_of_isEntry _ _ _ _ place (fun _ => isEntry_target source) clear.target
  have atTemporary (place : Place) :=
    @locate_of_isEntry _ _ _ _ place (fun _ => isEntry_temporary source) clear.temporary
  refine ⟨fun place entry => (atTarget place entry).2,
    fun place entry => (atTemporary place entry).2, ?_⟩
  intro target place contents entry held backup
  have located := (atTarget target entry).1
  obtain ⟨found, there, free⟩ :=
    clear.backup (isFile_eq_true_iff.mpr ⟨target, contents, located, held⟩)
  rwa [backup.unique (isEntry_backup source there)]

/-- A path that leads to no directory leads to a file or to nothing. -/
theorem isFile_eq_isSome {path : String} {place : Place} (located : base.locate path = .ok place)
    (free : base.get? place ≠ some .directory) : base.isFile path = (base.get? place).isSome := by
  cases found : base.get? place with
  | none => simp [isFile, find?, located, found]
  | some node =>
    cases node with
    | directory => exact absurd found free
    | file contents => exact isFile_eq_true_iff.mpr ⟨place, contents, located, found⟩

/-- What a write leaves, next to the tree before the directories were made for it. -/
theorem Writes.replaced {before after : FileTree} (writes : Writes directory artifacts base after)
    (named : ∀ artifact ∈ artifacts.toList, IsSourceName artifact.fileName)
    (distinct : artifacts.types.fileName ≠ artifacts.decoder.fileName) (grown : before.Grown base)
    (reached : ∃ above, base.walk [] (Path.names directory) = .ok above ∧
      base.get? above = some .directory) :
    Replaced directory artifacts before base after := by
  have completed := writes.completed named distinct
  refine ⟨grown, reached, ?_, ?_, ?_, ?_⟩
  · intro artifact member place entry
    have located := locate_of_isEntry (fun _ => isEntry_target (named artifact member))
      (writes.takes_target artifact member) entry
    exact completed.targets artifact member place located.1
  · intro artifact member place entry
    have located := locate_of_isEntry (fun _ => isEntry_temporary (named artifact member))
      (writes.takes_temporary artifact member) entry
    exact completed.temporaries artifact member place located.1
  · intro artifact member target place atTarget atBackup
    have source := named artifact member
    obtain ⟨located, free⟩ := locate_of_isEntry (fun _ => isEntry_target source)
      (writes.takes_target artifact member) atTarget
    obtain ⟨_, staged, _⟩ := writes.takes_temporary artifact member
    obtain ⟨found, there⟩ := locate_backupOf_of_temporary source staged
    obtain rfl := atBackup.unique (isEntry_backup source there)
    have same : base.get? target = before.get? target :=
      (grown target).resolve_right fun made => free made.2
    rw [writes.get?_backup named distinct member there, isFile_eq_isSome located free, same]
  · intro place elsewhere visible
    apply writes.get?_of_unused named distinct
    · intro artifact member temporary
      exact visible ⟨artifact, member, ".tmp", by simp [hiddenEndings],
        isEntry_temporary (named artifact member) temporary⟩
    · rintro artifact member (target | ⟨backup, keeps, located⟩)
      · exact elsewhere artifact member (isEntry_target (named artifact member) target)
      · obtain ⟨_, rfl⟩ := backup_placedOn_eq_some_iff.mp keeps
        exact visible ⟨artifact, member, ".bak", by simp [hiddenEndings],
          isEntry_backup (named artifact member) located⟩

end Entries

/-! ## Success and its effect -/

/-- A write succeeds if and only if its directory can be made and, once it is made, no directory
blocks a file there. The write then returns both paths, and replaces the two files without any other
trace. -/
theorem write_succeeds_iff_unblocked {artifacts : Artifacts} {workspace : Workspace}
    (named : ∀ artifact ∈ artifacts.toList, IsSourceName artifact.fileName)
    (distinct : artifacts.types.fileName ≠ artifacts.decoder.fileName)
    (allowed : ∀ artifact ∈ artifacts.toList,
      workspace.tree.Allows (Path.join directory ("." ++ artifact.fileName ++ ".tmp"))) :
    let outcome := (writeArtifacts directory artifacts : StateM Workspace _).run workspace
    let made := workspace.tree.createDirectories directory
    ((∃ paths, outcome.1 = .ok paths) ↔
      made.1 = .ok () ∧ ∀ artifact ∈ artifacts.toList, Unblocked made.2 directory artifact) ∧
    ∀ paths, outcome.1 = .ok paths →
      paths = [Path.join directory artifacts.types.fileName,
        Path.join directory artifacts.decoder.fileName] ∧
      Replaced directory artifacts workspace.tree made.2 outcome.2.tree := by
  intro outcome made
  have steps : ∀ paths, outcome.1 = .ok paths → made = (.ok (), made.2) ∧
      paths = targetPaths directory artifacts ∧
      Writes directory artifacts made.2 outcome.2.tree := by
    intro paths success
    obtain ⟨tree, created, listed, writes⟩ := writes_of_run (eq_mk_of_fst success)
    obtain rfl : made.2 = tree := congrArg Prod.snd created
    exact ⟨created, listed, writes⟩
  refine ⟨⟨?_, ?_⟩, ?_⟩
  · rintro ⟨paths, success⟩
    obtain ⟨created, _, writes⟩ := steps paths success
    refine ⟨congrArg Prod.fst created, fun artifact member => ?_⟩
    exact unblocked_of_clear (named artifact member) (writes.clear named distinct artifact member)
  · rintro ⟨success, unblocked⟩
    have created := eq_mk_of_fst success
    obtain ⟨clean, reached⟩ := reached_of_created created
    have within := workspace.tree.within_createDirectories directory
    obtain ⟨after, writes⟩ := exists_writes named distinct fun artifact member =>
      (unblocked artifact member).clear (named artifact member) clean reached
        (within.allows (allowed artifact member))
    obtain ⟨last, ran, _⟩ := run_of_writes created writes
    exact ⟨_, congrArg Prod.fst ran⟩
  · intro paths success
    obtain ⟨created, listed, writes⟩ := steps paths success
    refine ⟨listed, writes.replaced named distinct (grown_createDirectories directory) ?_⟩
    exact (reached_of_created created).2

/-- An output directory with an old decoder, a stale backup of it and, where the backup of a package
would go, a directory. Names and paths are limited. -/
def halfWritten : Workspace where
  tree.limits := some ⟨18, 64⟩
  tree.entries :=
    [(["out"], .directory), (["out", "dec.sv"], .file "old".toUTF8),
      (["out", ".dec.sv.bak"], .file "stale".toUTF8), (["out", ".ctrl_t_pkg.sv.bak"], .directory)]

/-- The decoder is replaced at the cost of its stale backup; there is no package to back up yet, so
the directory in the place of its backup does not matter. -/
theorem halfWritten_write_succeeds :
    ∃ (made : FileTree) (after : Workspace),
      halfWritten.tree.createDirectories "out/new/.." = (.ok (), made) ∧
      (∀ artifact ∈ decArtifacts.toList, Unblocked made "out/new/.." artifact) ∧
      (writeArtifacts "out/new/.." decArtifacts : StateM Workspace _).run halfWritten =
        (.ok ["out/new/../ctrl_t_pkg.sv", "out/new/../dec.sv"], after) ∧
      Replaced "out/new/.." decArtifacts halfWritten.tree made after.tree := by
  have distinct : decArtifacts.types.fileName ≠ decArtifacts.decoder.fileName := by decide
  have allowed : ∀ artifact ∈ decArtifacts.toList, halfWritten.tree.Allows
      (Path.join "out/new/.." ("." ++ artifact.fileName ++ ".tmp")) := by
    unfold Allows
    decide +kernel
  have success : ((writeArtifacts "out/new/.." decArtifacts : StateM Workspace _).run
      halfWritten).1 = .ok ["out/new/../ctrl_t_pkg.sv", "out/new/../dec.sv"] := by decide +kernel
  obtain ⟨possible, effect⟩ := write_succeeds_iff_unblocked decArtifacts_named distinct allowed
  obtain ⟨created, unblocked⟩ := possible.mp ⟨_, success⟩
  exact ⟨_, _, eq_mk_of_fst created, unblocked, eq_mk_of_fst success, (effect _ success).2⟩

end Writing

end DecoderGen
