import DecoderGen.Proofs.TreeOperations
import DecoderGen.Writing

/-! # Taking a write back

At every moment of a write the tree is the one it started from, except at places still in use:
temporary files, replaced targets and the backups of these. Discarding and restoring give these
places up one after the other, and at hidden places a file that stood there before may be gone.
-/

namespace DecoderGen

/-- A tree as it was, up to files that are gone and to places still in use. -/
structure FileTree.Preserved (gone pending : Place → Prop) (base tree : FileTree) : Prop where
  shape : base.SameShape tree
  kept : ∀ place, ¬ pending place →
    tree.get? place = base.get? place ∨ gone place ∧ tree.get? place = none

namespace FileTree.Preserved

variable {gone pending : Place → Prop} {base tree : FileTree}

theorem refl (gone pending : Place → Prop) (tree : FileTree) : Preserved gone pending tree tree :=
  ⟨SameShape.refl tree, fun _ _ => .inl rfl⟩

theorem mono {more : Place → Prop} (preserved : Preserved gone pending base tree)
    (wider : ∀ place, pending place → more place) : Preserved gone more base tree :=
  ⟨preserved.shape, fun place unused => preserved.kept place (unused ∘ wider place)⟩

/-- Where a file may be gone, or where there was none, a removed path is no longer in use. -/
theorem remove {path : String} (preserved : Preserved gone pending base tree)
    (expendable : ∀ place, base.locate path = .ok place →
      gone place ∨ ∀ contents, base.get? place ≠ some (.file contents)) :
    Preserved gone (fun place => pending place ∧ base.locate path ≠ .ok place) base
      (tree.quietly (·.remove path)) := by
  have shape : base.SameShape (tree.quietly (·.remove path)) :=
    preserved.shape.trans sameShape_quietly_remove
  refine ⟨shape, fun place unused => ?_⟩
  by_cases located : base.locate path = .ok place
  · have noFile := quietly_remove_ne_file (preserved.shape.locate located)
    rcases expendable place located with lost | noOld
    · cases found : (tree.quietly (·.remove path)).get? place with
      | none => exact .inr ⟨lost, rfl⟩
      | some node =>
        cases node with
        | file contents => exact absurd found (noFile contents)
        | directory => exact .inl ((shape.directories place).mpr found).symm
    · exact .inl (shape.get?_eq noOld noFile).symm
  · have elsewhere : tree.locate path ≠ .ok place :=
      fun found => located (preserved.shape.symm.locate found)
    rw [get?_quietly_remove elsewhere]
    exact preserved.kept place fun used => unused ⟨used, located⟩

/-- A file moved back to where it was gives up both places: the target is as it was, and the source
is empty, which its place allows. -/
theorem rename {source target : String} {sourcePlace targetPlace : Place} {contents : ByteArray}
    (preserved : Preserved gone pending base tree) (atSource : base.locate source = .ok sourcePlace)
    (atTarget : base.locate target = .ok targetPlace) (expendable : gone sourcePlace)
    (old : base.get? targetPlace = some (.file contents))
    (held : tree.get? sourcePlace = some (.file contents)) :
    Preserved gone (fun place => pending place ∧ place ≠ targetPlace ∧ place ≠ sourcePlace) base
      (tree.quietly (·.rename source target)) := by
  have free : tree.get? targetPlace ≠ some .directory := by
    rw [Ne, ← preserved.shape.directories, old]
    simp
  have renamed : tree.rename source target =
      .ok ((tree.erase sourcePlace).insert targetPlace (.file contents)) :=
    rename_eq_ok_iff.mpr ⟨sourcePlace, targetPlace, contents, preserved.shape.locate atSource,
      preserved.shape.locate atTarget, held, free, rfl⟩
  rw [quietly_of_ok renamed]
  refine ⟨preserved.shape.trans (sameShape_moved held free), fun place unused => ?_⟩
  rw [get?_moved held free]
  by_cases onTarget : place = targetPlace
  · exact .inl (by rw [if_pos onTarget, onTarget, old])
  · by_cases onSource : place = sourcePlace
    · exact .inr ⟨onSource ▸ expendable, by rw [if_neg onTarget, if_pos onSource]⟩
    · rw [if_neg onTarget, if_neg onSource]
      exact preserved.kept place fun used => unused ⟨used, onTarget, onSource⟩

end FileTree.Preserved

namespace Writing

open FileTree

/-! ## Runs on a workspace -/

section Runs

theorem run_bind {α β : Type} (action : StateM Workspace α) (next : α → StateM Workspace β)
    (workspace : Workspace) :
    (action >>= next).run workspace =
      (next (action.run workspace).1).run (action.run workspace).2 := rfl

theorem run_pure {α : Type} (value : α) (workspace : Workspace) :
    (pure value : StateM Workspace α).run workspace = (value, workspace) := rfl

theorem tree_progress (level : Level) (text : String) (workspace : Workspace) :
    ((progress level text : StateM Workspace Unit).run workspace).2.tree = workspace.tree := rfl

theorem run_write (path : String) (contents : ByteArray) (workspace : Workspace) :
    (Storage.write path contents : StateM Workspace _).run workspace =
      match workspace.tree.write path contents with
      | .error fault => (.error fault, workspace)
      | .ok tree => (.ok (), { workspace with tree }) := rfl

theorem run_isFile (path : String) (workspace : Workspace) :
    (Storage.isFile path : StateM Workspace Bool).run workspace =
      (workspace.tree.isFile path, workspace) := rfl

theorem run_rename (source target : String) (workspace : Workspace) :
    (Storage.rename source target : StateM Workspace _).run workspace =
      match workspace.tree.rename source target with
      | .error fault => (.error fault, workspace)
      | .ok tree => (.ok (), { workspace with tree }) := rfl

private theorem tree_update (operation : FileTree → Except FileFault FileTree)
    (workspace : Workspace) :
    (Workspace.update operation workspace).2.tree = workspace.tree.quietly operation := by
  unfold Workspace.update quietly
  cases operation workspace.tree <;> rfl

theorem tree_removeQuietly (path : String) (workspace : Workspace) :
    ((removeQuietly path : StateM Workspace Unit).run workspace).2.tree =
      workspace.tree.quietly (·.remove path) :=
  tree_update (·.remove path) workspace

theorem tree_renameQuietly (source target : String) (workspace : Workspace) :
    ((renameQuietly source target : StateM Workspace Unit).run workspace).2.tree =
      workspace.tree.quietly (·.rename source target) :=
  tree_update (·.rename source target) workspace

end Runs

/-! ## Discarding temporary files -/

section Discard

variable {gone pending : Place → Prop} {base : FileTree}

theorem run_discard_cons (staged : Staged) (rest : List Staged) (workspace : Workspace) :
    (discard (staged :: rest) : StateM Workspace Unit).run workspace =
      (discard rest : StateM Workspace Unit).run
        ((removeQuietly staged.temporary : StateM Workspace Unit).run workspace).2 := rfl

theorem get?_discard {list : List Staged} {workspace : Workspace} {place : Place}
    (elsewhere : ∀ staged ∈ list, workspace.tree.locate staged.temporary ≠ .ok place) :
    ((discard list : StateM Workspace Unit).run workspace).2.tree.get? place =
      workspace.tree.get? place := by
  induction list generalizing workspace with
  | nil => rfl
  | cons staged rest ih =>
    rw [run_discard_cons, ih, tree_removeQuietly]
    · exact get?_quietly_remove (elsewhere staged List.mem_cons_self)
    · intro later member
      rw [tree_removeQuietly]
      intro located
      exact elsewhere later (List.mem_cons_of_mem _ member)
        (sameShape_quietly_remove.symm.locate located)

/-- Temporary files stand where files may be gone, so discarding them gives their places up. -/
theorem preserved_discard {list : List Staged} {workspace : Workspace}
    (preserved : Preserved gone pending base workspace.tree)
    (hidden : ∀ staged ∈ list, ∀ place, base.locate staged.temporary = .ok place → gone place) :
    Preserved gone
      (fun place => pending place ∧ ∀ staged ∈ list, base.locate staged.temporary ≠ .ok place) base
      ((discard list : StateM Workspace Unit).run workspace).2.tree := by
  induction list generalizing pending workspace with
  | nil => exact preserved.mono fun place used => ⟨used, by simp⟩
  | cons staged rest ih =>
    have removed := preserved.remove fun place located =>
      .inl (hidden staged List.mem_cons_self place located)
    rw [← tree_removeQuietly] at removed
    rw [run_discard_cons]
    refine (ih removed fun later member => hidden later (List.mem_cons_of_mem _ member)).mono ?_
    rintro place ⟨⟨used, unlike⟩, others⟩
    exact ⟨used, List.forall_mem_cons.mpr ⟨unlike, others⟩⟩

end Discard

/-! ## Undoing replacements -/

section Undo

variable {gone pending : Place → Prop} {base tree : FileTree}

/-- The places of a replaced target and of its old contents. -/
def Placed.Uses (base : FileTree) (placed : Placed) (place : Place) : Prop :=
  base.locate placed.target = .ok place ∨
    ∃ backup, placed.backup = some backup ∧ base.locate backup = .ok place

/-- A replacement can be undone: the backup holds the old contents, or there were none. -/
def Placed.Undoable (gone : Place → Prop) (base tree : FileTree) (placed : Placed) : Prop :=
  match placed.backup with
  | none => ∀ place, base.locate placed.target = .ok place →
      ∀ contents, base.get? place ≠ some (.file contents)
  | some backup => ∃ targetPlace backupPlace contents,
      base.locate placed.target = .ok targetPlace ∧ base.locate backup = .ok backupPlace ∧
        gone backupPlace ∧ base.get? targetPlace = some (.file contents) ∧
        tree.get? backupPlace = some (.file contents)

/-- Only the backup matters for undoing a replacement. -/
theorem Placed.Undoable.of_get?_eq {placed : Placed} {after : FileTree}
    (undoable : placed.Undoable gone base tree)
    (same : ∀ backup place, placed.backup = some backup → base.locate backup = .ok place →
      after.get? place = tree.get? place) : placed.Undoable gone base after := by
  obtain ⟨target, backup⟩ := placed
  cases backup with
  | none => exact undoable
  | some backup =>
    obtain ⟨targetPlace, backupPlace, contents, atTarget, atBackup, hidden, old, held⟩ := undoable
    refine ⟨targetPlace, backupPlace, contents, atTarget, atBackup, hidden, old, ?_⟩
    rw [same backup backupPlace rfl atBackup, held]

theorem get?_undo {placed : Placed} {workspace : Workspace} {place : Place}
    (shape : base.SameShape workspace.tree) (elsewhere : ¬ placed.Uses base place) :
    ((undo placed : StateM Workspace Unit).run workspace).2.tree.get? place =
      workspace.tree.get? place := by
  obtain ⟨target, backup⟩ := placed
  have notTarget : workspace.tree.locate target ≠ .ok place :=
    fun located => elsewhere (.inl (shape.symm.locate located))
  cases backup with
  | none =>
    change ((removeQuietly target : StateM Workspace Unit).run workspace).2.tree.get? place = _
    rw [tree_removeQuietly, get?_quietly_remove notTarget]
  | some backup =>
    have notBackup : workspace.tree.locate backup ≠ .ok place :=
      fun located => elsewhere (.inr ⟨backup, rfl, shape.symm.locate located⟩)
    change ((renameQuietly backup target : StateM Workspace Unit).run workspace).2.tree.get? place = _
    rw [tree_renameQuietly, get?_quietly_rename notBackup notTarget]

/-- Undoing a replacement gives up its places: the target is as it was, the backup is gone. -/
theorem preserved_undo {placed : Placed} {workspace : Workspace}
    (preserved : Preserved gone pending base workspace.tree)
    (undoable : placed.Undoable gone base workspace.tree) :
    Preserved gone (fun place => pending place ∧ ¬ placed.Uses base place) base
      ((undo placed : StateM Workspace Unit).run workspace).2.tree := by
  obtain ⟨target, backup⟩ := placed
  cases backup with
  | none =>
    change Preserved _ _ _ ((removeQuietly target : StateM Workspace Unit).run workspace).2.tree
    rw [tree_removeQuietly]
    refine (preserved.remove fun place located => .inr (undoable place located)).mono ?_
    rintro place ⟨used, unlike⟩
    exact ⟨used, by simpa [Placed.Uses] using unlike⟩
  | some backup =>
    change Preserved _ _ _
      ((renameQuietly backup target : StateM Workspace Unit).run workspace).2.tree
    obtain ⟨targetPlace, backupPlace, contents, atTarget, atBackup, hidden, old, held⟩ := undoable
    rw [tree_renameQuietly]
    refine (preserved.rename atBackup atTarget hidden old held).mono ?_
    rintro place ⟨used, notTarget, notBackup⟩
    refine ⟨used, ?_⟩
    rintro (located | ⟨_, same, located⟩)
    · exact notTarget (Except.ok.inj (located.symm.trans atTarget))
    · obtain rfl := Option.some.inj same
      exact notBackup (Except.ok.inj (located.symm.trans atBackup))

/-- No place in common. -/
def Apart (one other : Place → Prop) : Prop := ∀ place, one place → ¬ other place

theorem Apart.symm {one other : Place → Prop} (apart : Apart one other) : Apart other one :=
  fun place second first => apart place first second

/-- Undoing replacements that have no place in common gives up all of their places. -/
theorem preserved_restore {list : List Placed} {workspace : Workspace}
    (preserved : Preserved gone (fun place => ∃ placed ∈ list, placed.Uses base place) base
      workspace.tree)
    (undoable : ∀ placed ∈ list, placed.Undoable gone base workspace.tree)
    (apart : list.Pairwise fun one other => Apart (one.Uses base) (other.Uses base)) :
    Preserved gone (fun _ => False) base
      ((restore list : StateM Workspace Unit).run workspace).2.tree := by
  induction list generalizing workspace with
  | nil => exact preserved.mono (by simp)
  | cons placed rest ih =>
    obtain ⟨separate, apart⟩ := List.pairwise_cons.mp apart
    change Preserved _ _ _ ((restore rest : StateM Workspace Unit).run
      ((undo placed : StateM Workspace Unit).run workspace).2).2.tree
    refine ih ?_ ?_ apart
    · refine (preserved_undo preserved (undoable placed List.mem_cons_self)).mono ?_
      rintro place ⟨⟨user, member, used⟩, free⟩
      rcases List.mem_cons.mp member with rfl | later
      · exact absurd used free
      · exact ⟨user, later, used⟩
    · intro later member
      refine (undoable later (List.mem_cons_of_mem _ member)).of_get?_eq ?_
      intro backup place keeps located
      refine get?_undo preserved.shape fun used => ?_
      exact separate later member place used (.inr ⟨backup, keeps, located⟩)

end Undo

end Writing

end DecoderGen
