import DecoderGen.Proofs.FailedWrite

/-! # The steps of a write

A write succeeds exactly if its steps on the tree do. Whether they do is a matter of directories
alone: every path has to lead to a place without a directory.
-/

namespace DecoderGen

namespace FileTree

variable {tree after : FileTree} {path : String}

/-- A path leads to a place where a file can stand. -/
def Takes (tree : FileTree) (path : String) : Prop :=
  ∃ place, tree.locate path = .ok place ∧ tree.get? place ≠ some .directory

/-- Files play no part in where other files can stand. -/
theorem SameShape.takes {other : FileTree} (same : tree.SameShape other) (takes : tree.Takes path) :
    other.Takes path := by
  obtain ⟨place, located, free⟩ := takes
  exact ⟨place, same.locate located, fun blocked => free ((same.directories place).mpr blocked)⟩

/-- Where the target of a path is unchanged, it is a file or not as before. -/
theorem SameShape.isFile_eq {other : FileTree} (same : tree.SameShape other)
    (unchanged : ∀ place, tree.locate path = .ok place → other.get? place = tree.get? place) :
    other.isFile path = tree.isFile path := by
  rw [Bool.eq_iff_iff, isFile_eq_true_iff, isFile_eq_true_iff]
  constructor
  · rintro ⟨place, contents, located, held⟩
    have here := same.symm.locate located
    exact ⟨place, contents, here, (unchanged place here).symm.trans held⟩
  · rintro ⟨place, contents, located, held⟩
    exact ⟨place, contents, same.locate located, (unchanged place located).trans held⟩

theorem Takes.write (takes : tree.Takes path) (contents : ByteArray) :
    ∃ after, tree.write path contents = .ok after := by
  obtain ⟨place, located, free⟩ := takes
  exact ⟨_, write_eq_ok_iff.mpr ⟨place, located, free, rfl⟩⟩

theorem takes_of_write {contents : ByteArray} (written : tree.write path contents = .ok after) :
    tree.Takes path := by
  obtain ⟨place, located, free, _⟩ := write_eq_ok_iff.mp written
  exact ⟨place, located, free⟩

theorem sameShape_write {contents : ByteArray} (written : tree.write path contents = .ok after) :
    tree.SameShape after := by
  obtain ⟨place, _, free, rfl⟩ := write_eq_ok_iff.mp written
  exact sameShape_insert_file free contents

theorem Takes.rename {source : String} {place : Place} {contents : ByteArray}
    (takes : tree.Takes path) (located : tree.locate source = .ok place)
    (held : tree.get? place = some (.file contents)) :
    ∃ after, tree.rename source path = .ok after := by
  obtain ⟨target, atTarget, free⟩ := takes
  exact ⟨_, rename_eq_ok_iff.mpr ⟨place, target, contents, located, atTarget, held, free, rfl⟩⟩

theorem takes_of_rename {source : String} (renamed : tree.rename source path = .ok after) :
    tree.Takes path := by
  obtain ⟨_, place, _, _, located, _, free, _⟩ := rename_eq_ok_iff.mp renamed
  exact ⟨place, located, free⟩

end FileTree

namespace Writing

open FileTree

variable {gone : Place → Prop} {base : FileTree} {directory : String}

/-! ## The steps of a write on a tree -/

/-- Artifacts are written to their temporary files, one after the other. -/
inductive Stages (directory : String) : List Artifact → FileTree → FileTree → Prop
  | nil {tree : FileTree} : Stages directory [] tree tree
  | cons {artifact : Artifact} {rest : List Artifact} {tree middle after : FileTree}
      (written : tree.write (Staged.ofArtifact directory artifact).temporary
        artifact.contents.toUTF8 = .ok middle)
      (later : Stages directory rest middle after) :
      Stages directory (artifact :: rest) tree after

/-- Temporary files are moved into place, one after the other. -/
inductive Places : List Staged → List Placed → FileTree → FileTree → Prop
  | nil {tree : FileTree} : Places [] [] tree tree
  | cons {staged : Staged} {backup : Option String} {rest : List Staged} {placed : List Placed}
      {tree middle after : FileTree} (moved : PlacingOutcome tree staged (.ok backup) middle)
      (later : Places rest placed middle after) :
      Places (staged :: rest) (⟨staged.target, backup⟩ :: placed) tree after

/-- The tree once old contents that are no longer needed are removed. -/
def withoutBackups (tree : FileTree) : List Placed → FileTree
  | [] => tree
  | placed :: rest =>
    match placed.backup with
    | some backup => withoutBackups (tree.quietly (·.remove backup)) rest
    | none => withoutBackups tree rest

section Steps

variable {artifacts : List Artifact} {list : List Staged} {done placed : List Placed}
  {workspace last : Workspace} {after : FileTree}

/-- A run that stages all artifacts writes one temporary file after the other. -/
theorem stages_of_run {earlier staged : List Staged}
    (ran : (stage directory earlier artifacts : StateM Workspace _).run workspace =
      (.ok staged, last)) :
    staged = earlier ++ artifacts.map (Staged.ofArtifact directory) ∧
      Stages directory artifacts workspace.tree last.tree := by
  induction artifacts generalizing earlier workspace with
  | nil =>
    obtain ⟨same, rfl⟩ := Prod.mk.inj ran
    obtain rfl := Except.ok.inj same
    exact ⟨(List.append_nil _).symm, .nil⟩
  | cons artifact rest ih =>
    simp only [stage, run_bind, run_write] at ran
    cases written : workspace.tree.write (Staged.ofArtifact directory artifact).temporary
      artifact.contents.toUTF8 with
    | error fault =>
      simp only [written, run_bind, run_pure] at ran
      cases (Prod.mk.inj ran).1
    | ok tree =>
      simp only [written, run_bind] at ran
      obtain ⟨rfl, stages⟩ := ih ran
      exact ⟨by simp, .cons written stages⟩

theorem run_of_stages {tree : FileTree} (stages : Stages directory artifacts tree after)
    (earlier : List Staged) (here : workspace.tree = tree) :
    ∃ last, (stage directory earlier artifacts : StateM Workspace _).run workspace =
        (.ok (earlier ++ artifacts.map (Staged.ofArtifact directory)), last) ∧
      last.tree = after := by
  induction stages generalizing earlier workspace with
  | nil => exact ⟨workspace, by rw [List.map_nil, List.append_nil]; rfl, here⟩
  | @cons artifact rest _ _ _ written later ih =>
    subst here
    rw [List.map_cons, List.append_cons earlier _ (rest.map (Staged.ofArtifact directory))]
    simp only [stage, run_bind, run_write, written]
    exact ih _ rfl

/-- The target is moved aside whenever the tree allows it. -/
theorem run_of_movedAside {target : String} {backup : Option String}
    (aside : MovedAside workspace.tree target backup after) :
    ∃ next, (moveAside target : StateM Workspace _).run workspace = (.ok backup, next) ∧
      next.tree = after := by
  cases backup with
  | none =>
    obtain ⟨free, rfl⟩ := aside
    refine ⟨workspace, ?_, rfl⟩
    simp only [moveAside, run_bind, run_isFile, free]
    rfl
  | some kept =>
    obtain ⟨rfl, renamed⟩ := aside
    obtain ⟨place, _, contents, located, _, held, _, _⟩ := rename_eq_ok_iff.mp renamed
    have standing : workspace.tree.isFile target = true :=
      isFile_eq_true_iff.mpr ⟨place, contents, located, held⟩
    simp only [moveAside, run_bind, run_isFile, standing, if_true, run_rename, renamed]
    exact ⟨_, rfl, rfl⟩

theorem run_of_placing {staged : Staged} {backup : Option String}
    (moved : PlacingOutcome workspace.tree staged (.ok backup) after) :
    ∃ next, (place staged : StateM Workspace _).run workspace = (.ok backup, next) ∧
      next.tree = after := by
  obtain ⟨middle, aside, renamed⟩ := moved
  obtain ⟨next, ran, rfl⟩ := run_of_movedAside aside
  simp only [place, run_bind, ran, run_rename, renamed]
  exact ⟨_, rfl, rfl⟩

theorem places_of_run {all : List Placed}
    (ran : (placeAll done list : StateM Workspace _).run workspace = (.ok all, last)) :
    ∃ placed, all = done ++ placed ∧ Places list placed workspace.tree last.tree := by
  induction list generalizing done workspace with
  | nil =>
    obtain ⟨same, rfl⟩ := Prod.mk.inj ran
    obtain rfl := Except.ok.inj same
    exact ⟨[], (List.append_nil _).symm, .nil⟩
  | cons staged rest ih =>
    have outcome := placingOutcome_place staged workspace
    rcases one : (place staged : StateM Workspace _).run workspace with ⟨result, next⟩
    rw [one] at outcome
    simp only [placeAll, run_bind, one] at ran
    cases result with
    | error fault =>
      simp only [run_bind, run_pure] at ran
      cases (Prod.mk.inj ran).1
    | ok backup =>
      simp only [run_bind] at ran
      obtain ⟨placed, rfl, places⟩ := ih ran
      exact ⟨⟨staged.target, backup⟩ :: placed, by simp, .cons outcome places⟩

theorem run_of_places {tree : FileTree} (places : Places list placed tree after)
    (done : List Placed) (here : workspace.tree = tree) :
    ∃ last, (placeAll done list : StateM Workspace _).run workspace = (.ok (done ++ placed), last) ∧
      last.tree = after := by
  induction places generalizing done workspace with
  | nil => exact ⟨workspace, by rw [List.append_nil]; rfl, here⟩
  | @cons staged backup rest placed _ _ _ moved later ih =>
    subst here
    obtain ⟨next, ran, rfl⟩ := run_of_placing moved
    rw [List.append_cons done _ placed]
    simp only [placeAll, run_bind, ran]
    exact ih _ rfl

theorem tree_dropBackups (placed : List Placed) (workspace : Workspace) :
    ((dropBackups placed : StateM Workspace Unit).run workspace).2.tree =
      withoutBackups workspace.tree placed := by
  induction placed generalizing workspace with
  | nil => rfl
  | cons entry rest ih =>
    obtain ⟨target, backup⟩ := entry
    cases backup with
    | none => exact ih workspace
    | some backup =>
      simp only [dropBackups, run_bind, withoutBackups]
      rw [ih, tree_removeQuietly]

theorem Places.targets {tree : FileTree} (places : Places list placed tree after) :
    placed.map (·.target) = list.map (·.target) := by
  induction places with
  | nil => rfl
  | cons _ _ ih => simp only [List.map_cons, ih]

/-- The steps of a whole write on a tree that has the directory. -/
inductive Writes (directory : String) (artifacts : Artifacts) : FileTree → FileTree → Prop
  | intro {tree middle full : FileTree} {placed : List Placed}
      (stages : Stages directory artifacts.toList tree middle)
      (places : Places (artifacts.toList.map (Staged.ofArtifact directory)) placed middle full) :
      Writes directory artifacts tree (withoutBackups full placed)

/-- The paths of the written files. -/
def targetPaths (directory : String) (artifacts : Artifacts) : List String :=
  (artifacts.toList.map (Staged.ofArtifact directory)).map (·.target)

theorem writes_of_run {files : Artifacts} {paths : List String}
    (ran : (writeArtifacts directory files : StateM Workspace _).run workspace =
      (.ok paths, last)) :
    ∃ made, workspace.tree.createDirectories directory = (.ok (), made) ∧
      paths = targetPaths directory files ∧ Writes directory files made last.tree := by
  simp only [writeArtifacts, run_bind, run_createDirectories] at ran
  rcases made : workspace.tree.createDirectories directory with ⟨result, tree⟩
  rw [made] at ran
  cases result with
  | error fault => cases (Prod.mk.inj ran).1
  | ok =>
    rcases staging : (stage directory [] files.toList : StateM Workspace _).run
      { workspace with tree } with ⟨outcome, middle⟩
    simp only [run_bind, staging] at ran
    cases outcome with
    | error failure => cases (Prod.mk.inj ran).1
    | ok staged =>
      obtain ⟨rfl, stages⟩ := stages_of_run staging
      rw [List.nil_append] at ran
      rcases placing : (placeAll [] (files.toList.map (Staged.ofArtifact directory)) :
        StateM Workspace _).run middle with ⟨outcome, full⟩
      simp only [run_bind, placing] at ran
      cases outcome with
      | error failure => cases (Prod.mk.inj ran).1
      | ok all =>
        obtain ⟨placed, rfl, places⟩ := places_of_run placing
        simp only [run_bind, run_pure] at ran
        obtain ⟨targets, rfl⟩ := Prod.mk.inj ran
        rw [tree_dropBackups]
        exact ⟨tree, rfl, (Except.ok.inj targets).symm.trans places.targets, ⟨stages, places⟩⟩

theorem run_of_writes {files : Artifacts} {tree : FileTree}
    (made : workspace.tree.createDirectories directory = (.ok (), tree))
    (writes : Writes directory files tree after) :
    ∃ last, (writeArtifacts directory files : StateM Workspace _).run workspace =
        (.ok (targetPaths directory files), last) ∧ last.tree = after := by
  obtain ⟨stages, places⟩ := writes
  obtain ⟨middle, staging, rfl⟩ := @run_of_stages _ _ { workspace with tree } _ _ stages [] rfl
  obtain ⟨full, placing, rfl⟩ := run_of_places places [] rfl
  simp only [writeArtifacts, run_bind, run_createDirectories, made, staging, List.nil_append,
    placing, run_pure]
  exact ⟨_, by rw [places.targets]; rfl, tree_dropBackups _ _⟩

end Steps

/-! ## When a write succeeds -/

section Open

/-- No path of a file meets a directory. -/
structure Staged.Open (tree : FileTree) (staged : Staged) : Prop where
  temporary : tree.Takes staged.temporary
  target : tree.Takes staged.target
  backup : tree.Takes (backupOf staged.target)

/-- No path of a file meets a directory, its backup counted only where there are old contents. -/
structure Staged.Clear (tree : FileTree) (staged : Staged) : Prop where
  temporary : tree.Takes staged.temporary
  target : tree.Takes staged.target
  backup : tree.isFile staged.target = true → tree.Takes (backupOf staged.target)

theorem Staged.Open.clear {staged : Staged} {tree : FileTree} (opened : staged.Open tree) :
    staged.Clear tree :=
  ⟨opened.temporary, opened.target, fun _ => opened.backup⟩

theorem Staged.Open.of_sameShape {staged : Staged} {tree after : FileTree}
    (opened : staged.Open tree) (same : tree.SameShape after) : staged.Open after :=
  ⟨same.takes opened.temporary, same.takes opened.target, same.takes opened.backup⟩

theorem sameShape_placing {tree after : FileTree} {staged : Staged} {backup : Option String}
    (moved : PlacingOutcome tree staged (.ok backup) after) : tree.SameShape after := by
  obtain ⟨middle, aside, renamed⟩ := moved
  exact aside.sameShape.trans (sameShape_rename renamed)

theorem takes_of_placing {tree after : FileTree} {staged : Staged} {backup : Option String}
    (moved : PlacingOutcome tree staged (.ok backup) after) : tree.Takes staged.target := by
  obtain ⟨middle, aside, renamed⟩ := moved
  exact aside.sameShape.symm.takes (takes_of_rename renamed)

variable {artifacts : List Artifact} {list : List Staged} {placed : List Placed}
  {tree after : FileTree}

theorem Stages.sameShape (stages : Stages directory artifacts tree after) :
    tree.SameShape after := by
  induction stages with
  | nil => exact SameShape.refl _
  | cons written _ ih => exact (sameShape_write written).trans ih

theorem Places.sameShape (places : Places list placed tree after) : tree.SameShape after := by
  induction places with
  | nil => exact SameShape.refl _
  | cons moved _ ih => exact (sameShape_placing moved).trans ih

theorem Stages.takes (stages : Stages directory artifacts tree after) :
    ∀ artifact ∈ artifacts, tree.Takes (Staged.ofArtifact directory artifact).temporary := by
  induction stages with
  | nil => simp
  | cons written _ ih =>
    refine List.forall_mem_cons.mpr ⟨takes_of_write written, fun artifact member => ?_⟩
    exact (sameShape_write written).symm.takes (ih artifact member)

theorem exists_stages
    (takes : ∀ artifact ∈ artifacts, tree.Takes (Staged.ofArtifact directory artifact).temporary) :
    ∃ after, Stages directory artifacts tree after := by
  induction artifacts generalizing tree with
  | nil => exact ⟨tree, .nil⟩
  | cons artifact rest ih =>
    obtain ⟨here, later⟩ := List.forall_mem_cons.mp takes
    obtain ⟨middle, written⟩ := here.write artifact.contents.toUTF8
    obtain ⟨after, stages⟩ := ih fun other member => (sameShape_write written).takes (later other member)
    exact ⟨after, .cons written stages⟩

theorem Places.takes (places : Places list placed tree after) :
    ∀ staged ∈ list, tree.Takes staged.target := by
  induction places with
  | nil => simp
  | cons moved _ ih =>
    refine List.forall_mem_cons.mpr ⟨takes_of_placing moved, fun staged member => ?_⟩
    exact (sameShape_placing moved).symm.takes (ih staged member)

/-- A file that is staged can be placed if no directory is in the way. -/
theorem exists_placing {staged : Staged} (sound : staged.Sound gone base)
    (shape : base.SameShape tree) (ready : staged.Ready base tree)
    (unchanged : ∀ place, base.locate staged.target = .ok place → tree.get? place = base.get? place)
    (clear : staged.Clear base) : ∃ backup after, PlacingOutcome tree staged (.ok backup) after := by
  obtain ⟨place, contents, located, held⟩ := ready
  by_cases standing : tree.isFile staged.target = true
  · obtain ⟨target, old, atTarget, there⟩ := isFile_eq_true_iff.mp standing
    have free := clear.backup (by rw [← shape.isFile_eq unchanged, standing])
    obtain ⟨middle, aside⟩ := (shape.takes free).rename atTarget there
    have still : middle.get? place = some (.file contents) := by
      rw [get?_rename aside, held]
      · intro target
        exact sound.target_stays place (shape.symm.locate target)
          (sound.temporary_gone place located)
      · exact fun backup => sound.temporary_ne_backup place located (shape.symm.locate backup)
    have shape := shape.trans (sameShape_rename aside)
    obtain ⟨after, renamed⟩ := (shape.takes clear.target).rename (shape.locate located) still
    exact ⟨some (backupOf staged.target), after, middle, ⟨rfl, aside⟩, renamed⟩
  · obtain ⟨after, renamed⟩ := (shape.takes clear.target).rename (shape.locate located) held
    exact ⟨none, after, tree, ⟨Bool.eq_false_iff.mpr standing, rfl⟩, renamed⟩

theorem exists_places {done : List Placed} (separated : Separated gone base done list)
    (sofar : PlacedSoFar gone base done list tree) (clear : ∀ staged ∈ list, staged.Clear base) :
    ∃ placed after, Places list placed tree after := by
  induction list generalizing done tree with
  | nil => exact ⟨[], tree, .nil⟩
  | cons staged rest ih =>
    obtain ⟨here, later⟩ := List.forall_mem_cons.mp clear
    obtain ⟨backup, middle, moved⟩ := exists_placing (separated.sound staged List.mem_cons_self)
      sofar.preserved.shape (sofar.ready staged List.mem_cons_self)
      (fun place => sofar.target_unchanged separated) here
    obtain ⟨placed, after, places⟩ := ih
      (separated.place fun place => placed_uses_of_placing_ok moved) (sofar.place separated moved)
      later
    exact ⟨_, after, .cons moved places⟩

end Open

end Writing

end DecoderGen
