import DecoderGen.Proofs.CreatedDirectories
import DecoderGen.Proofs.Placement
import DecoderGen.Proofs.Siblings

/-! # Writes that fail

A write that fails leaves the tree as it was, up to the directories made for it and to files that
stood at one of its hidden places. The six places of a write are entries of one directory under six
different names, so the steps of one file never touch a place of the other.
-/

namespace DecoderGen.Writing

open FileTree

variable {gone : Place → Prop} {base : FileTree}

/-! ## Files beside their targets -/

section Beside

variable {directory : String} {artifacts : Artifacts} {artifact other : Artifact} {place : Place}

/-- The endings of temporary files and of backups. -/
def hiddenEndings : List String := [".tmp", ".bak"]

/-- The place of a temporary file or of a backup, beside the target of an artifact. -/
def IsHidden (tree : FileTree) (directory : String) (artifacts : Artifacts) (place : Place) : Prop :=
  ∃ artifact ∈ artifacts.toList, ∃ ending ∈ hiddenEndings,
    tree.IsEntry directory ("." ++ artifact.fileName ++ ending) place

theorem isEntry_temporary (source : IsSourceName artifact.fileName)
    (located : base.locate (Staged.ofArtifact directory artifact).temporary = .ok place) :
    base.IsEntry directory ("." ++ artifact.fileName ++ ".tmp") place := by
  have plain := source.plain_hidden ".tmp" (by simp)
  exact isEntry_of_locate_join plain located

theorem isEntry_target (source : IsSourceName artifact.fileName)
    (located : base.locate (Staged.ofArtifact directory artifact).target = .ok place) :
    base.IsEntry directory artifact.fileName place :=
  isEntry_of_locate_join source.plain located

theorem isEntry_backup (source : IsSourceName artifact.fileName)
    (located : base.locate (backupOf (Staged.ofArtifact directory artifact).target) = .ok place) :
    base.IsEntry directory ("." ++ artifact.fileName ++ ".bak") place := by
  have plain := source.plain_hidden ".bak" (by simp)
  exact isEntry_of_locate_backupOf source.plain plain located

/-- Where a temporary file can be reached, so can the backup of its target: the two names are of one
length, and the path of a backup is no longer. -/
theorem locate_backupOf_of_temporary (source : IsSourceName artifact.fileName)
    (located : base.locate (Staged.ofArtifact directory artifact).temporary = .ok place) :
    ∃ found, base.locate (backupOf (Staged.ofArtifact directory artifact).target) = .ok found := by
  have plain := source.plain_hidden ".tmp" (by simp)
  have plainBackup := source.plain_hidden ".bak" (by simp)
  obtain ⟨above, _, joined⟩ := Path.names_join directory
  have last : Path.fileName (Path.join directory artifact.fileName) = artifact.fileName := by
    simp [Path.fileName, joined _ source.plain]
  have reachable := locate_sibling source.plain plain plainBackup ?_ ?_ located
  · rw [backupOf, Staged.ofArtifact, last]
    exact reachable
  · simp [source.clean]
  · simp only [String.utf8ByteSize_append, Nat.add_le_add_iff_left]
    decide

theorem sound_ofArtifact (named : ∀ artifact ∈ artifacts.toList, IsSourceName artifact.fileName)
    (member : artifact ∈ artifacts.toList) :
    (Staged.ofArtifact directory artifact).Sound (IsHidden base directory artifacts) base := by
  have source := named artifact member
  constructor
  · intro place located
    exact ⟨artifact, member, ".tmp", by simp [hiddenEndings], isEntry_temporary source located⟩
  · intro place located
    exact ⟨artifact, member, ".bak", by simp [hiddenEndings], isEntry_backup source located⟩
  · rintro place located ⟨other, _, ending, _, entry⟩
    exact source.ne_hidden ending ((isEntry_target source located).name_unique entry)
  · intro place temporary backup
    have same := (isEntry_temporary source temporary).name_unique (isEntry_backup source backup)
    have endings := (hidden_inj (by simp) same).2
    simp at endings

/-- The names of the places of an artifact. -/
theorem isEntry_of_uses (source : IsSourceName artifact.fileName)
    (used : (Staged.ofArtifact directory artifact).Uses base place) :
    base.IsEntry directory artifact.fileName place ∨ ∃ ending ∈ hiddenEndings,
      base.IsEntry directory ("." ++ artifact.fileName ++ ending) place := by
  rcases used with temporary | target | backup
  · exact .inr ⟨".tmp", by simp [hiddenEndings], isEntry_temporary source temporary⟩
  · exact .inl (isEntry_target source target)
  · exact .inr ⟨".bak", by simp [hiddenEndings], isEntry_backup source backup⟩

theorem apart_ofArtifact (source : IsSourceName artifact.fileName)
    (otherSource : IsSourceName other.fileName) (different : artifact.fileName ≠ other.fileName) :
    Apart ((Staged.ofArtifact directory artifact).Uses base)
      ((Staged.ofArtifact directory other).Uses base) := by
  have lengths : ∀ ending ∈ hiddenEndings, ending.toList.length = 4 := by simp [hiddenEndings]
  intro place used usedByOther
  rcases isEntry_of_uses source used with entry | ⟨ending, known, entry⟩
  · rcases isEntry_of_uses otherSource usedByOther with again | ⟨last, _, again⟩
    · exact different (entry.name_unique again)
    · exact source.ne_hidden last (entry.name_unique again)
  · rcases isEntry_of_uses otherSource usedByOther with again | ⟨last, knownLast, again⟩
    · exact otherSource.ne_hidden ending (again.name_unique entry)
    · have sameLength := (lengths ending known).trans (lengths last knownLast).symm
      exact different (hidden_inj sameLength (entry.name_unique again)).1

/-- Before anything is placed. -/
theorem separated_ofArtifact (base : FileTree) (directory : String)
    (named : ∀ artifact ∈ artifacts.toList, IsSourceName artifact.fileName)
    (distinct : artifacts.types.fileName ≠ artifacts.decoder.fileName) :
    Separated (IsHidden base directory artifacts) base []
      (artifacts.toList.map (Staged.ofArtifact directory)) := by
  refine ⟨?_, List.Pairwise.nil, ?_, by simp⟩
  · intro staged member
    obtain ⟨artifact, among, rfl⟩ := List.mem_map.mp member
    exact sound_ofArtifact named among
  · rw [List.pairwise_map]
    apply List.pairwise_pair.mpr
    exact apart_ofArtifact (named artifacts.types (by simp [Artifacts.toList]))
      (named artifacts.decoder (by simp [Artifacts.toList])) distinct

end Beside

/-! ## The whole write -/

section Whole

variable {directory : String} {artifacts : Artifacts} {workspace after : Workspace}
  {failure : FileFailure}

theorem run_createDirectories (path : String) (workspace : Workspace) :
    (Storage.createDirectories path : StateM Workspace _).run workspace =
      ((workspace.tree.createDirectories path).1,
        { workspace with tree := (workspace.tree.createDirectories path).2 }) := rfl

/-- Nothing but the making of directories leaves a trace, hidden files apart. -/
theorem preserved_of_write_error
    (named : ∀ artifact ∈ artifacts.toList, IsSourceName artifact.fileName)
    (distinct : artifacts.types.fileName ≠ artifacts.decoder.fileName)
    (failed : (writeArtifacts directory artifacts : StateM Workspace _).run workspace =
      (.error failure, after)) :
    Preserved (IsHidden (workspace.tree.createDirectories directory).2 directory artifacts)
      (fun _ => False) (workspace.tree.createDirectories directory).2 after.tree := by
  simp only [writeArtifacts, run_bind, run_createDirectories] at failed
  rcases made : workspace.tree.createDirectories directory with ⟨result, base⟩
  rw [made] at failed
  cases result with
  | error fault =>
    obtain ⟨_, rfl⟩ := Prod.mk.inj failed
    exact Preserved.refl _ _ base
  | ok =>
    have separated := separated_ofArtifact base directory named distinct
    have initial : StagedSoFar (IsHidden base directory artifacts) base [] base :=
      ⟨Preserved.refl _ _ base, by simp⟩
    have staging := @stagingOutcome_stage _ base directory artifacts.toList []
      { workspace with tree := base }
      (fun staged member => (separated.sound staged member).temporary_gone) initial
    rcases ran : (stage directory [] artifacts.toList : StateM Workspace _).run
      { workspace with tree := base } with ⟨outcome, next⟩
    simp only [ran, List.nil_append] at staging
    simp only [run_bind, ran] at failed
    cases outcome with
    | error early =>
      obtain ⟨_, rfl⟩ := Prod.mk.inj failed
      exact staging
    | ok staged =>
      obtain ⟨rfl, sofar⟩ := staging
      -- Nothing is placed yet, so the places in use are those of the temporary files.
      have started : PlacedSoFar (IsHidden base directory artifacts) base []
          (artifacts.toList.map (Staged.ofArtifact directory)) next.tree :=
        ⟨sofar.preserved.mono fun _ => .inr, by simp, sofar.ready⟩
      rcases placed : (placeAll [] (artifacts.toList.map (Staged.ofArtifact directory)) :
        StateM Workspace _).run next with ⟨result, last⟩
      simp only [run_bind, placed] at failed
      cases result with
      | error late =>
        obtain ⟨_, rfl⟩ := Prod.mk.inj failed
        exact preserved_of_placeAll_error separated started placed
      | ok targets =>
        simp only [run_bind, run_pure] at failed
        cases (Prod.mk.inj failed).1

/-- The tree after a failed write, next to the one before it and to the one with the directories that
were made for the output. -/
structure LeftAsItWas (hidden : Place → Prop) (before made after : FileTree) : Prop where
  /-- Making directories adds directories and nothing else. -/
  grown : before.Grown made
  /-- What was there is there still; only a file at a hidden place may be gone. -/
  kept : ∀ place node, before.get? place = some node → after.get? place = some node ∨
    (∃ contents, node = .file contents) ∧ hidden place ∧ after.get? place = none
  /-- What is new is a directory made for the output. -/
  new : ∀ place, before.get? place = none → after.get? place = none ∨
    after.get? place = some .directory ∧ made.get? place = some .directory
  /-- If hidden places were free, making directories is all that happened. -/
  unchanged : (∀ place, hidden place → before.get? place = none) →
    ∀ place, after.get? place = made.get? place

/-- A place that was given up and is empty now had no directory before. -/
private theorem ne_directory_of_preserved {base tree : FileTree} {pending : Place → Prop}
    (preserved : Preserved gone pending base tree) {place : Place} (absent : tree.get? place = none) :
    base.get? place ≠ some .directory := by
  intro directory
  rw [(preserved.shape.directories place).mp directory] at absent
  cases absent

theorem LeftAsItWas.of_preserved {before made after : FileTree} (grown : before.Grown made)
    (preserved : Preserved gone (fun _ => False) made after) :
    LeftAsItWas gone before made after := by
  refine ⟨grown, ?_, ?_, ?_⟩
  · intro place node present
    have same := grown.get?_eq_some present
    rcases preserved.kept place id with still | ⟨lost, absent⟩
    · exact .inl (still.trans same)
    · refine .inr ⟨?_, lost, absent⟩
      cases node with
      | file contents => exact ⟨contents, rfl⟩
      | directory => exact absurd same (ne_directory_of_preserved preserved absent)
  · intro place absent
    rcases preserved.kept place id with still | ⟨_, gone⟩
    · rcases grown place with same | ⟨_, directory⟩
      · exact .inl (still.trans (same.trans absent))
      · exact .inr ⟨still.trans directory, directory⟩
    · exact .inl gone
  · intro free place
    rcases preserved.kept place id with still | ⟨lost, absent⟩
    · exact still
    · rcases grown place with same | ⟨_, directory⟩
      · rw [absent, same, free place lost]
      · exact absurd directory (ne_directory_of_preserved preserved absent)

/-- A failed write leaves the tree as it was, up to directories made for the output and to files that
stood at one of its four hidden places. -/
theorem failed_write_leaves_tree
    (named : ∀ artifact ∈ artifacts.toList, IsSourceName artifact.fileName)
    (distinct : artifacts.types.fileName ≠ artifacts.decoder.fileName)
    (failed : (writeArtifacts directory artifacts : StateM Workspace _).run workspace =
      (.error failure, after)) :
    let made := (workspace.tree.createDirectories directory).2
    LeftAsItWas (IsHidden made directory artifacts) workspace.tree made after.tree :=
  LeftAsItWas.of_preserved (grown_createDirectories directory)
    (preserved_of_write_error named distinct failed)

/-- The files of a decoder `dec` whose output type is `ctrl_t`. -/
def decArtifacts : Artifacts :=
  ⟨⟨"ctrl_t_pkg.sv", "package ctrl_t_pkg;"⟩, ⟨"dec.sv", "module dec;"⟩⟩

theorem decArtifacts_named :
    ∀ artifact ∈ decArtifacts.toList, IsSourceName artifact.fileName := by
  intro artifact member
  simp only [decArtifacts, Artifacts.toList, List.mem_cons, List.not_mem_nil, or_false] at member
  rcases member with rfl | rfl
  · exact ⟨"ctrl_t_pkg", by decide, by decide⟩
  · exact ⟨"dec", by decide, by decide⟩

/-- An outcome with what is known of its result. -/
theorem eq_mk_of_fst {α β : Type} {outcome : α × β} {result : α}
    (known : outcome.1 = result) : outcome = (result, outcome.2) := by
  rw [← known]

/-- An output directory with an old package, a stale backup of it and a directory in the place of
the decoder. -/
def crowded : Workspace where
  tree.entries :=
    [(["out"], .directory), (["out", "ctrl_t_pkg.sv"], .file "old".toUTF8),
      (["out", ".ctrl_t_pkg.sv.bak"], .file "stale".toUTF8), (["out", "dec.sv"], .directory)]

/-- The package is replaced and restored, at the cost of the stale backup. -/
theorem crowded_write_leaves_tree :
    ∃ after : Workspace,
      (writeArtifacts "out" decArtifacts : StateM Workspace _).run crowded =
        (.error ⟨"out/dec.sv", .isDirectory⟩, after) ∧
      (after.tree.get? ["out", ".ctrl_t_pkg.sv.bak"]).isNone = true ∧
      LeftAsItWas (IsHidden (crowded.tree.createDirectories "out").2 "out" decArtifacts)
        crowded.tree (crowded.tree.createDirectories "out").2 after.tree := by
  have outcome : ((writeArtifacts "out" decArtifacts : StateM Workspace _).run crowded).1 =
      .error ⟨"out/dec.sv", .isDirectory⟩ := by decide +kernel
  have failed := eq_mk_of_fst outcome
  refine ⟨_, failed, ?_, failed_write_leaves_tree decArtifacts_named ?_ failed⟩
  · decide +kernel
  · decide +kernel

/-- A path to the directory `out` that leads through the place of a temporary file. -/
def roundabout : String := "out/.dec.sv.tmp/.."

/-- Hidden places that were free need not be free after a failed write. A path may lead through one
of them; a directory is then made there, which blocks the temporary file and stays. -/
theorem hidden_place_taken_by_failed_write :
    ¬ ∀ (directory : String) (artifacts : Artifacts) (workspace after : Workspace)
        (failure : FileFailure),
      (∀ artifact ∈ artifacts.toList, IsSourceName artifact.fileName) →
      artifacts.types.fileName ≠ artifacts.decoder.fileName →
      (writeArtifacts directory artifacts : StateM Workspace _).run workspace =
        (.error failure, after) →
      (∀ place, IsHidden (workspace.tree.createDirectories directory).2 directory artifacts place →
        workspace.tree.get? place = none) →
      ∀ place, IsHidden (workspace.tree.createDirectories directory).2 directory artifacts place →
        after.tree.get? place = none := by
  intro always
  let made := (({} : Workspace).tree.createDirectories roundabout).2
  have outcome : ((writeArtifacts roundabout decArtifacts : StateM Workspace _).run {}).1 =
      .error ⟨"out/.dec.sv.tmp/../.dec.sv.tmp", .isDirectory⟩ := by decide +kernel
  have leads : made.leadsToDirectory (Path.names roundabout) = true := by decide +kernel
  obtain ⟨above, walked, here⟩ := leadsToDirectory_eq_true_iff.mp leads
  have reached : made.walk [] (Path.names roundabout) = .ok ["out"] := by decide +kernel
  obtain rfl : above = ["out"] := Except.ok.inj (walked.symm.trans reached)
  have hidden : IsHidden made roundabout decArtifacts ["out", ".dec.sv.tmp"] :=
    ⟨decArtifacts.decoder, by simp [Artifacts.toList], ".tmp", by simp [hiddenEndings], ["out"],
      walked, here, by decide +kernel⟩
  have free : ∀ place, IsHidden made roundabout decArtifacts place →
      ({} : Workspace).tree.get? place = none := by
    rintro place ⟨_, _, _, _, entry⟩
    simp [get?, entry.ne_root]
  have absent := always roundabout decArtifacts {} _ _ decArtifacts_named (by decide +kernel)
    (eq_mk_of_fst outcome) free _ hidden
  have present : (((writeArtifacts roundabout decArtifacts : StateM Workspace _).run
      {}).2.tree.get? ["out", ".dec.sv.tmp"]).isSome = true := by decide +kernel
  rw [absent] at present
  cases present

end Whole

end DecoderGen.Writing
