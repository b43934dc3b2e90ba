import DecoderGen.Proofs.Rollback

/-! # Staging and placing files

A write keeps track of the places in use. Staging adds the place of one temporary file after the
other; placing a file gives up the place of its temporary file and takes its target, together with
a backup if a file stood there. Whenever a step fails, the rollback gives up all of them.
-/

namespace DecoderGen.Writing

open FileTree

variable {gone : Place → Prop} {base : FileTree}

/-! ## Staging -/

section Staging

/-- The temporary file is there. -/
def Staged.Ready (base tree : FileTree) (staged : Staged) : Prop :=
  ∃ place contents, base.locate staged.temporary = .ok place ∧
    tree.get? place = some (.file contents)

/-- A place of a temporary file. -/
def HoldsTemporary (base : FileTree) (list : List Staged) (place : Place) : Prop :=
  ∃ staged ∈ list, base.locate staged.temporary = .ok place

/-- The files staged so far are there, and nothing else has changed. -/
structure StagedSoFar (gone : Place → Prop) (base : FileTree) (done : List Staged)
    (tree : FileTree) : Prop where
  preserved : Preserved gone (HoldsTemporary base done) base tree
  ready : ∀ staged ∈ done, staged.Ready base tree

theorem StagedSoFar.write {done : List Staged} {tree after : FileTree} {staged : Staged}
    {contents : ByteArray} (sofar : StagedSoFar gone base done tree)
    (written : tree.write staged.temporary contents = .ok after) :
    StagedSoFar gone base (done ++ [staged]) after := by
  obtain ⟨place, located, free, rfl⟩ := write_eq_ok_iff.mp written
  have located : base.locate staged.temporary = .ok place :=
    sofar.preserved.shape.symm.locate located
  have below : place ≠ [] := ne_root tree free
  refine ⟨⟨sofar.preserved.shape.trans (sameShape_insert_file free contents), ?_⟩, ?_⟩
  · intro other unused
    have elsewhere : other ≠ place := by
      rintro rfl
      exact unused ⟨staged, by simp, located⟩
    rw [get?_insert tree below, if_neg elsewhere]
    refine sofar.preserved.kept other ?_
    rintro ⟨user, member, used⟩
    exact unused ⟨user, List.mem_append_left _ member, used⟩
  · intro user member
    rcases List.mem_append.mp member with earlier | new
    · obtain ⟨other, old, atOther, held⟩ := sofar.ready user earlier
      by_cases same : other = place
      · exact ⟨other, contents, atOther, by rw [get?_insert tree below, if_pos same]⟩
      · exact ⟨other, old, atOther, by rw [get?_insert tree below, if_neg same, held]⟩
    · obtain rfl := List.mem_singleton.mp new
      exact ⟨place, contents, located, by rw [get?_insert tree below, if_pos rfl]⟩

/-- What staging ends with: all temporary files, or none of them. -/
def StagingOutcome (gone : Place → Prop) (base : FileTree) (expected : List Staged) :
    Except FileFailure (List Staged) → FileTree → Prop
  | .error _, after => Preserved gone (fun _ => False) base after
  | .ok staged, after => staged = expected ∧ StagedSoFar gone base expected after

theorem stagingOutcome_stage {directory : String} {artifacts : List Artifact} {done : List Staged}
    {workspace : Workspace}
    (hidden : ∀ staged ∈ done ++ artifacts.map (Staged.ofArtifact directory), ∀ place,
      base.locate staged.temporary = .ok place → gone place)
    (sofar : StagedSoFar gone base done workspace.tree) :
    let outcome := (stage directory done artifacts : StateM Workspace _).run workspace
    StagingOutcome gone base (done ++ artifacts.map (Staged.ofArtifact directory)) outcome.1
      outcome.2.tree := by
  induction artifacts generalizing done workspace with
  | nil =>
    rw [List.map_nil, List.append_nil]
    exact ⟨rfl, sofar⟩
  | cons artifact rest ih =>
    rw [List.map_cons] at hidden ⊢
    simp only [stage, run_bind, run_write]
    cases outcome : workspace.tree.write (Staged.ofArtifact directory artifact).temporary
      artifact.contents.toUTF8 with
    | error fault =>
      have removed := sofar.preserved.remove fun place located =>
        .inl (hidden (Staged.ofArtifact directory artifact) (by simp) place located)
      rw [← tree_removeQuietly] at removed
      simp only [run_bind, run_pure]
      refine (preserved_discard removed fun staged member =>
        hidden staged (List.mem_append_left _ member)).mono ?_
      rintro place ⟨⟨⟨staged, member, used⟩, _⟩, discarded⟩
      exact discarded staged member used
    | ok tree =>
      simp only [run_bind]
      rw [List.append_cons] at hidden ⊢
      apply ih hidden
      rw [tree_progress]
      exact sofar.write outcome

end Staging

/-! ## Placing one file -/

section Placing

variable {tree middle after : FileTree} {staged : Staged} {backup : Option String}

/-- The places of a temporary file, of its target and of the old contents of the target. -/
def Staged.Uses (base : FileTree) (staged : Staged) (place : Place) : Prop :=
  base.locate staged.temporary = .ok place ∨ base.locate staged.target = .ok place ∨
    base.locate (backupOf staged.target) = .ok place

/-- The temporary file and the backup are hidden, the target is not, and all three differ. -/
structure Staged.Sound (gone : Place → Prop) (base : FileTree) (staged : Staged) : Prop where
  temporary_gone : ∀ place, base.locate staged.temporary = .ok place → gone place
  backup_gone : ∀ place, base.locate (backupOf staged.target) = .ok place → gone place
  target_stays : ∀ place, base.locate staged.target = .ok place → ¬ gone place
  temporary_ne_backup : ∀ place, base.locate staged.temporary = .ok place →
    base.locate (backupOf staged.target) ≠ .ok place

/-- A target before a new file takes its place: without a file, or with its file moved aside. -/
def MovedAside (tree : FileTree) (target : String) : Option String → FileTree → Prop
  | none, after => tree.isFile target = false ∧ after = tree
  | some backup, after => backup = backupOf target ∧ tree.rename target backup = .ok after

/-- What placing can do: change nothing, fail with the target moved aside, or succeed. -/
def PlacingOutcome (tree : FileTree) (staged : Staged) :
    Except FileFault (Option String) → FileTree → Prop
  | .error _, after => after = tree ∨ ∃ middle fault,
      tree.rename staged.target (backupOf staged.target) = .ok middle ∧
        middle.rename staged.temporary staged.target = .error fault
  | .ok backup, after => ∃ middle, MovedAside tree staged.target backup middle ∧
      middle.rename staged.temporary staged.target = .ok after

/-- Moving aside fails without a change, or leaves the target free of files. -/
theorem run_moveAside (target : String) (workspace : Workspace) :
    (∃ fault, (moveAside target : StateM Workspace _).run workspace = (.error fault, workspace)) ∨
      ∃ backup next, (moveAside target : StateM Workspace _).run workspace = (.ok backup, next) ∧
        MovedAside workspace.tree target backup next.tree := by
  simp only [moveAside, run_bind]
  by_cases standing : ((Storage.isFile target : StateM Workspace Bool).run workspace).1 = true
  · rw [if_pos standing]
    simp only [run_bind, run_isFile, run_rename]
    cases aside : workspace.tree.rename target (backupOf target) with
    | error fault => exact .inl ⟨fault, rfl⟩
    | ok middle => exact .inr ⟨some (backupOf target), _, rfl, rfl, aside⟩
  · rw [if_neg standing]
    exact .inr ⟨none, workspace, rfl, Bool.eq_false_iff.mpr standing, rfl⟩

theorem placingOutcome_place (staged : Staged) (workspace : Workspace) :
    let outcome := (place staged : StateM Workspace _).run workspace
    PlacingOutcome workspace.tree staged outcome.1 outcome.2.tree := by
  simp only [place, run_bind]
  rcases run_moveAside staged.target workspace with ⟨fault, ran⟩ | ⟨backup, next, ran, aside⟩
  · rw [ran]
    exact .inl rfl
  · simp only [ran, run_bind, run_rename]
    cases replaced : next.tree.rename staged.temporary staged.target with
    | ok after => exact ⟨next.tree, aside, replaced⟩
    | error fault =>
      cases backup with
      | none => exact .inl aside.2
      | some kept =>
        obtain ⟨rfl, renamed⟩ := aside
        simp only [run_bind, run_pure]
        exact .inr ⟨next.tree, fault, renamed, replaced⟩

theorem MovedAside.sameShape {target : String} (aside : MovedAside tree target backup middle) :
    tree.SameShape middle := by
  cases backup with
  | none =>
    obtain ⟨_, rfl⟩ := aside
    exact SameShape.refl _
  | some kept =>
    obtain ⟨rfl, renamed⟩ := aside
    exact sameShape_rename renamed

theorem MovedAside.get?_eq {target : String} {place : Place} (shape : base.SameShape tree)
    (aside : MovedAside tree target backup middle)
    (elsewhere : ¬ Placed.Uses base ⟨target, backup⟩ place) :
    middle.get? place = tree.get? place := by
  cases backup with
  | none =>
    obtain ⟨_, rfl⟩ := aside
    rfl
  | some kept =>
    obtain ⟨rfl, renamed⟩ := aside
    apply get?_rename renamed
    · exact fun located => elsewhere (.inl (shape.symm.locate located))
    · exact fun located => elsewhere (.inr ⟨_, rfl, shape.symm.locate located⟩)

/-- What was moved aside is what stood at the target, so it can be brought back. -/
theorem MovedAside.undoable {target : String} (shape : base.SameShape tree)
    (aside : MovedAside tree target backup middle)
    (unchanged : ∀ place, base.locate target = .ok place → tree.get? place = base.get? place)
    (hidden : ∀ place, base.locate (backupOf target) = .ok place → gone place) :
    Placed.Undoable gone base middle ⟨target, backup⟩ := by
  cases backup with
  | none =>
    intro place located contents held
    have standing : tree.isFile target = true :=
      isFile_eq_true_iff.mpr ⟨place, contents, shape.locate located, by rw [unchanged _ located, held]⟩
    rw [aside.1] at standing
    cases standing
  | some kept =>
    obtain ⟨rfl, renamed⟩ := aside
    obtain ⟨targetPlace, backupPlace, contents, atTarget, atBackup, held, free, rfl⟩ :=
      rename_eq_ok_iff.mp renamed
    have atTarget := shape.symm.locate atTarget
    have atBackup := shape.symm.locate atBackup
    refine ⟨targetPlace, backupPlace, contents, atTarget, atBackup, hidden _ atBackup, ?_, ?_⟩
    · rw [← unchanged _ atTarget, held]
    · rw [get?_moved held free, if_pos rfl]

theorem MovedAside.uses {place : Place} (aside : MovedAside tree staged.target backup middle)
    (used : Placed.Uses base ⟨staged.target, backup⟩ place) : staged.Uses base place := by
  rcases used with onTarget | ⟨kept, rfl, onBackup⟩
  · exact .inr (.inl onTarget)
  · obtain ⟨rfl, _⟩ := aside
    exact .inr (.inr onBackup)

/-- Once the target is moved aside nothing blocks the temporary file, so a failure to place a file
changes nothing. -/
theorem eq_of_placing_error {fault : FileFault} (sound : staged.Sound gone base)
    (shape : base.SameShape tree) (ready : staged.Ready base tree)
    (failed : PlacingOutcome tree staged (.error fault) after) : after = tree := by
  rcases failed with same | ⟨middle, blocked, renamed, failed⟩
  · exact same
  · -- The second move cannot fail: its source is a place of its own, and its goal was just emptied.
    exfalso
    obtain ⟨targetPlace, backupPlace, old, atTarget, atBackup, held, free, rfl⟩ :=
      rename_eq_ok_iff.mp renamed
    obtain ⟨place, contents, located, staging⟩ := ready
    have moved := sameShape_moved held free
    have notTarget : place ≠ targetPlace := by
      rintro rfl
      exact sound.target_stays place (shape.symm.locate atTarget)
        (sound.temporary_gone place located)
    have notBackup : place ≠ backupPlace := by
      rintro rfl
      exact sound.temporary_ne_backup place located (shape.symm.locate atBackup)
    have unblocked := rename_eq_ok_iff.mpr ⟨place, targetPlace, contents,
      moved.locate (shape.locate located), moved.locate atTarget,
      by rw [get?_moved held free, if_neg notBackup, if_neg notTarget, staging],
      by rw [Ne, ← moved.directories, held]; simp, rfl⟩
    rw [failed] at unblocked
    cases unblocked

/-- A successful placing touches the new replacement and the temporary file only. -/
theorem get?_of_placing_ok {place : Place} (shape : base.SameShape tree)
    (success : PlacingOutcome tree staged (.ok backup) after)
    (unused : ¬ Placed.Uses base ⟨staged.target, backup⟩ place)
    (unlike : base.locate staged.temporary ≠ .ok place) : after.get? place = tree.get? place := by
  obtain ⟨middle, aside, renamed⟩ := success
  have shapeMiddle := shape.trans aside.sameShape
  rw [← aside.get?_eq shape unused]
  apply get?_rename renamed
  · exact fun located => unlike (shapeMiddle.symm.locate located)
  · exact fun located => unused (.inl (shapeMiddle.symm.locate located))

theorem temporary_absent_of_placing_ok {place : Place} (sound : staged.Sound gone base)
    (shape : base.SameShape tree) (success : PlacingOutcome tree staged (.ok backup) after)
    (located : base.locate staged.temporary = .ok place) : after.get? place = none := by
  obtain ⟨middle, aside, renamed⟩ := success
  have shapeMiddle := shape.trans aside.sameShape
  obtain ⟨source, target, contents, atSource, atTarget, held, free, rfl⟩ :=
    rename_eq_ok_iff.mp renamed
  obtain rfl : place = source := Except.ok.inj ((shapeMiddle.locate located).symm.trans atSource)
  have notTarget : place ≠ target := by
    rintro rfl
    exact sound.target_stays place (shapeMiddle.symm.locate atTarget)
      (sound.temporary_gone place located)
  rw [get?_moved held free, if_neg notTarget, if_pos rfl]

theorem undoable_of_placing_ok (sound : staged.Sound gone base) (shape : base.SameShape tree)
    (unchanged : ∀ place, base.locate staged.target = .ok place → tree.get? place = base.get? place)
    (success : PlacingOutcome tree staged (.ok backup) after) :
    Placed.Undoable gone base after ⟨staged.target, backup⟩ := by
  obtain ⟨middle, aside, renamed⟩ := success
  have shapeMiddle := shape.trans aside.sameShape
  refine (aside.undoable shape unchanged sound.backup_gone).of_get?_eq ?_
  rintro _ place rfl onBackup
  obtain ⟨rfl, _⟩ := aside
  apply get?_rename renamed
  · intro onTemporary
    exact sound.temporary_ne_backup place (shapeMiddle.symm.locate onTemporary) onBackup
  · intro onTarget
    exact sound.target_stays place (shapeMiddle.symm.locate onTarget)
      (sound.backup_gone place onBackup)

theorem placed_uses_of_placing_ok {place : Place}
    (success : PlacingOutcome tree staged (.ok backup) after)
    (used : Placed.Uses base ⟨staged.target, backup⟩ place) : staged.Uses base place := by
  obtain ⟨_, aside, _⟩ := success
  exact aside.uses used

end Placing

/-! ## Placing all files -/

section PlacingAll

/-- No two files use a place together, neither those placed nor those that follow. -/
structure Separated (gone : Place → Prop) (base : FileTree) (done : List Placed)
    (rest : List Staged) : Prop where
  sound : ∀ staged ∈ rest, staged.Sound gone base
  done_apart : done.Pairwise fun one other => Apart (one.Uses base) (other.Uses base)
  rest_apart : rest.Pairwise fun one other => Apart (one.Uses base) (other.Uses base)
  between : ∀ placed ∈ done, ∀ staged ∈ rest, Apart (placed.Uses base) (staged.Uses base)

/-- The files placed so far can be taken back, and those that follow are staged. -/
structure PlacedSoFar (gone : Place → Prop) (base : FileTree) (done : List Placed)
    (rest : List Staged) (tree : FileTree) : Prop where
  preserved : Preserved gone (fun place => (∃ placed ∈ done, placed.Uses base place) ∨
    HoldsTemporary base rest place) base tree
  undoable : ∀ placed ∈ done, placed.Undoable gone base tree
  ready : ∀ staged ∈ rest, staged.Ready base tree

variable {done : List Placed} {rest : List Staged} {staged : Staged} {tree after : FileTree}

theorem Separated.place {placed : Placed} (separated : Separated gone base done (staged :: rest))
    (within : ∀ place, placed.Uses base place → staged.Uses base place) :
    Separated gone base (done ++ [placed]) rest := by
  obtain ⟨ahead, restApart⟩ := List.pairwise_cons.mp separated.rest_apart
  refine ⟨fun later member => separated.sound later (List.mem_cons_of_mem _ member), ?_,
    restApart, ?_⟩
  · rw [List.pairwise_append]
    refine ⟨separated.done_apart, List.pairwise_singleton _ _, ?_⟩
    intro earlier member new same place inUse used
    obtain rfl := List.mem_singleton.mp same
    exact separated.between earlier member staged List.mem_cons_self place inUse (within place used)
  · intro user member later staging place inUse used
    rcases List.mem_append.mp member with earlier | new
    · exact separated.between user earlier later (List.mem_cons_of_mem _ staging) place inUse used
    · obtain rfl := List.mem_singleton.mp new
      exact ahead later staging place (within place inUse) used

/-- The rollback gives up every place in use. -/
theorem PlacedSoFar.rollback {workspace : Workspace} (separated : Separated gone base done rest)
    (sofar : PlacedSoFar gone base done rest workspace.tree) :
    Preserved gone (fun _ => False) base ((restore done.reverse : StateM Workspace Unit).run
      ((discard rest : StateM Workspace Unit).run workspace).2).2.tree := by
  have shape := sofar.preserved.shape
  have discarded := preserved_discard sofar.preserved
    fun staged member => (separated.sound staged member).temporary_gone
  refine preserved_restore (discarded.mono ?_) ?_ ?_
  · rintro place ⟨⟨placed, member, used⟩ | ⟨staged, member, used⟩, unlike⟩
    · exact ⟨placed, List.mem_reverse.mpr member, used⟩
    · exact absurd used (unlike staged member)
  · intro placed member
    have member := List.mem_reverse.mp member
    refine (sofar.undoable placed member).of_get?_eq ?_
    intro backup place keeps located
    apply get?_discard
    intro staged staging temporary
    exact separated.between placed member staged staging place (.inr ⟨backup, keeps, located⟩)
      (.inl (shape.symm.locate temporary))
  · rw [List.pairwise_reverse]
    exact separated.done_apart.imp Apart.symm

/-- The target of the next file is still as it was. -/
theorem PlacedSoFar.target_unchanged (separated : Separated gone base done (staged :: rest))
    (sofar : PlacedSoFar gone base done (staged :: rest) tree) {place : Place}
    (located : base.locate staged.target = .ok place) : tree.get? place = base.get? place := by
  have sound := separated.sound staged List.mem_cons_self
  have visible := sound.target_stays place located
  have used : staged.Uses base place := .inr (.inl located)
  refine (sofar.preserved.kept place ?_).resolve_right fun lost => visible lost.1
  rintro (⟨placed, member, inUse⟩ | ⟨user, member, temporary⟩)
  · exact separated.between placed member staged List.mem_cons_self place inUse used
  · rcases List.mem_cons.mp member with rfl | later
    · exact visible (sound.temporary_gone place temporary)
    · exact (List.pairwise_cons.mp separated.rest_apart).1 user later place used (.inl temporary)

/-- Placing the next file keeps track of the places in use. -/
theorem PlacedSoFar.place {backup : Option String}
    (separated : Separated gone base done (staged :: rest))
    (sofar : PlacedSoFar gone base done (staged :: rest) tree)
    (success : PlacingOutcome tree staged (.ok backup) after) :
    PlacedSoFar gone base (done ++ [⟨staged.target, backup⟩]) rest after := by
  have sound := separated.sound staged List.mem_cons_self
  have shape := sofar.preserved.shape
  have outside : ∀ place, ¬ staged.Uses base place → after.get? place = tree.get? place :=
    fun place unused => get?_of_placing_ok shape success
      (unused ∘ placed_uses_of_placing_ok success) (unused ∘ .inl)
  refine ⟨⟨?_, ?_⟩, ?_, ?_⟩
  · obtain ⟨middle, aside, renamed⟩ := success
    exact (shape.trans aside.sameShape).trans (sameShape_rename renamed)
  · -- The temporary file is no longer in use; it is gone, which its place allows.
    intro place free
    have unused : ¬ Placed.Uses base ⟨staged.target, backup⟩ place :=
      fun used => free (.inl ⟨_, by simp, used⟩)
    by_cases temporary : base.locate staged.temporary = .ok place
    · exact .inr ⟨sound.temporary_gone place temporary,
        temporary_absent_of_placing_ok sound shape success temporary⟩
    · rw [get?_of_placing_ok shape success unused temporary]
      refine sofar.preserved.kept place ?_
      rintro (⟨placed, member, used⟩ | ⟨user, member, used⟩)
      · exact free (.inl ⟨placed, List.mem_append_left _ member, used⟩)
      · rcases List.mem_cons.mp member with rfl | later
        · exact temporary used
        · exact free (.inr ⟨user, later, used⟩)
  · intro placed member
    rcases List.mem_append.mp member with earlier | new
    · refine (sofar.undoable placed earlier).of_get?_eq ?_
      intro kept place keeps located
      refine outside place fun used => ?_
      exact separated.between placed earlier staged List.mem_cons_self place
        (.inr ⟨kept, keeps, located⟩) used
    · obtain rfl := List.mem_singleton.mp new
      exact undoable_of_placing_ok sound shape
        (fun place => sofar.target_unchanged separated) success
  · intro later member
    obtain ⟨place, contents, located, held⟩ := sofar.ready later (List.mem_cons_of_mem _ member)
    have ahead := (List.pairwise_cons.mp separated.rest_apart).1 later member
    refine ⟨place, contents, located, ?_⟩
    rw [outside place fun used => ahead place used (.inl located), held]

/-- When placing fails, however many files were placed before, every place is given up. -/
theorem preserved_of_placeAll_error {failure : FileFailure} {workspace last : Workspace}
    (separated : Separated gone base done rest)
    (sofar : PlacedSoFar gone base done rest workspace.tree)
    (failed : (placeAll done rest : StateM Workspace _).run workspace = (.error failure, last)) :
    Preserved gone (fun _ => False) base last.tree := by
  induction rest generalizing done workspace with
  | nil => cases (Prod.mk.inj failed).1
  | cons staged rest ih =>
    have outcome := placingOutcome_place staged workspace
    rcases ran : (Writing.place staged : StateM Workspace _).run workspace with ⟨result, next⟩
    rw [ran] at outcome
    simp only [placeAll, run_bind, ran] at failed
    cases result with
    | error fault =>
      have unchanged : next.tree = workspace.tree :=
        eq_of_placing_error (separated.sound staged List.mem_cons_self) sofar.preserved.shape
          (sofar.ready staged List.mem_cons_self) outcome
      -- The tree is the one the invariant speaks of, so the rollback can start from it.
      rw [← unchanged] at sofar
      simp only [run_bind, run_pure] at failed
      obtain ⟨_, rfl⟩ := Prod.mk.inj failed
      exact sofar.rollback separated
    | ok backup =>
      have further := separated.place fun place => placed_uses_of_placing_ok outcome
      simp only [run_bind] at failed
      refine ih further ?_ failed
      rw [tree_progress]
      exact sofar.place separated outcome

end PlacingAll

end DecoderGen.Writing
