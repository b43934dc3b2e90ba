import DecoderGen.Proofs.TreeOperations
import Mathlib.Data.List.TakeWhile

/-! # Creating directories

Creating a directory with all directories above it adds directories and does nothing else. If it
succeeds, its path leads to a directory; and where a path leads to a directory already, there is
nothing to create.
-/

namespace DecoderGen.FileTree

/-- Nothing was lost or changed, and everything new is a directory. -/
def Grown (before after : FileTree) : Prop :=
  ∀ place, after.get? place = before.get? place ∨
    before.get? place = none ∧ after.get? place = some .directory

namespace Grown

variable {before middle after : FileTree}

theorem refl (tree : FileTree) : tree.Grown tree := fun _ => .inl rfl

theorem trans (first : before.Grown middle) (second : middle.Grown after) : before.Grown after := by
  intro place
  rcases second place with same | ⟨absent, made⟩
  · rw [same]
    exact first place
  · rcases first place with same | ⟨_, present⟩
    · exact .inr ⟨same ▸ absent, made⟩
    · rw [present] at absent
      cases absent

/-- What was there is there still. -/
theorem get?_eq_some (grown : before.Grown after) {place : Place} {node : Node}
    (present : before.get? place = some node) : after.get? place = some node := by
  rcases grown place with same | ⟨absent, _⟩
  · rw [same, present]
  · rw [present] at absent
    cases absent

end Grown

/-! ## One directory -/

section Make

variable {tree after : FileTree} {names : List String}

/-- What is left out at the end of names stays in place. -/
theorem eq_withoutTrailing_append (names : List String) :
    ∃ dropped, names = withoutTrailing names ++ dropped ∧
      ∀ name ∈ dropped, Path.stays name = true := by
  refine ⟨(names.reverse.takeWhile (· = "")).reverse, ?_, ?_⟩
  · rw [withoutTrailing, ← List.reverse_append, List.takeWhile_append_dropWhile,
      List.reverse_reverse]
  · intro name member
    have empty := List.mem_takeWhile_imp (List.mem_reverse.mp member)
    simp only [decide_eq_true_eq] at empty
    rw [empty]
    rfl

/-- A directory is made where the names lead, empty ones at their end left out. -/
theorem makeDirectory_eq (tree : FileTree) (names : List String) :
    tree.makeDirectory names =
      match tree.walk [] (withoutTrailing names) with
      | .error fault => .error fault
      | .ok created =>
        match tree.get? created with
        | some _ => .error .exists
        | none => .ok (tree.insert created .directory) := by
  unfold makeDirectory
  cases listed : (withoutTrailing names).reverse with
  | nil =>
    rw [List.reverse_eq_nil_iff.mp listed]
    rfl
  | cons last above =>
    rw [List.reverse_eq_cons_iff.mp listed, walk_append]
    simp only [walk_singleton]
    cases tree.walk [] above.reverse <;> rfl

theorem makeDirectory_eq_ok_iff :
    tree.makeDirectory names = .ok after ↔
      ∃ created, tree.walk [] (withoutTrailing names) = .ok created ∧
        tree.get? created = none ∧ after = tree.insert created .directory := by
  rw [makeDirectory_eq]
  cases tree.walk [] (withoutTrailing names) with
  | error fault => simp
  | ok created => cases found : tree.get? created <;> simp [found, eq_comm]

theorem grown_makeDirectory (success : tree.makeDirectory names = .ok after) :
    tree.Grown after := by
  obtain ⟨created, _, absent, rfl⟩ := makeDirectory_eq_ok_iff.mp success
  intro place
  rw [get?_insert tree (ne_root tree (by simp [absent]))]
  by_cases same : place = created
  · simp [same, absent]
  · simp [same]

theorem within_makeDirectory (success : tree.makeDirectory names = .ok after) :
    tree.Within after := by
  refine ⟨?_, fun place => (grown_makeDirectory success).get?_eq_some⟩
  obtain ⟨_, _, _, rfl⟩ := makeDirectory_eq_ok_iff.mp success
  rfl

/-- Names that lead to something leave nothing to make. -/
theorem makeDirectory_eq_exists {place : Place} {node : Node}
    (reached : tree.walk [] names = .ok place) (present : tree.get? place = some node) :
    tree.makeDirectory names = .error .exists := by
  obtain ⟨dropped, split, stays⟩ := eq_withoutTrailing_append names
  rw [split, walk_append_eq_ok_iff] at reached
  obtain ⟨middle, front, back⟩ := reached
  rw [makeDirectory_eq, front]
  simp only [← eq_of_walk_stays stays back, present]

theorem ensureDirectory_of_leads (leads : tree.leadsToDirectory names = true) :
    tree.ensureDirectory names = (.ok (), tree) := by
  obtain ⟨place, reached, here⟩ := leadsToDirectory_eq_true_iff.mp leads
  rw [ensureDirectory, makeDirectory_eq_exists reached here]
  simp only [leads, if_true]

/-- After a successful creation the names lead to a directory, whether it was made or found. -/
theorem leads_of_ensureDirectory (success : tree.ensureDirectory names = (.ok (), after)) :
    after.leadsToDirectory names = true := by
  unfold ensureDirectory at success
  split at success
  · next created made =>
    obtain ⟨_, rfl⟩ := Prod.mk.inj success
    have within := within_makeDirectory made
    obtain ⟨place, reached, absent, rfl⟩ := makeDirectory_eq_ok_iff.mp made
    have here : (tree.insert place .directory).get? place = some .directory := by
      rw [get?_insert tree (ne_root tree (by simp [absent])), if_pos rfl]
    obtain ⟨dropped, split, stays⟩ := eq_withoutTrailing_append names
    refine leadsToDirectory_eq_true_iff.mpr ⟨place, ?_, here⟩
    rw [split, walk_append_eq_ok_iff]
    exact ⟨place, within.walk reached, walk_stays here stays⟩
  · split at success
    · next leads =>
      obtain ⟨_, rfl⟩ := Prod.mk.inj success
      exact leads
    · cases (Prod.mk.inj success).1

end Make

/-! ## All directories of a path -/

section Create

variable {tree after : FileTree} {path : String}

/-- What holds between the trees of one directory made holds between those of all. -/
theorem rel_createDirectories {r : FileTree → FileTree → Prop} (refl : ∀ tree, r tree tree)
    (trans : ∀ one two three, r one two → r two three → r one three)
    (make : ∀ tree names after, tree.makeDirectory names = .ok after → r tree after)
    (tree : FileTree) (path : String) : r tree (tree.createDirectories path).2 := by
  have ensure : ∀ (tree : FileTree) (names : List String), r tree (tree.ensureDirectory names).2 := by
    intro tree names
    unfold ensureDirectory
    split
    · next success => exact make _ _ _ success
    · split <;> exact refl tree
  -- The directories above are made first, one below the other, so each step only adds one.
  have below : ∀ (above names : List String), r tree (tree.ensureBelow names above).2 := by
    intro above
    induction above with
    | nil => exact ensure tree
    | cons last above ih =>
      intro names
      simp only [ensureBelow]
      split
      · have made := ih (last :: above).reverse
        split
        · next outcome => rwa [outcome] at made
        · next outcome =>
          rw [outcome] at made
          exact trans _ _ _ made (ensure _ names)
      · exact ensure tree names
  unfold createDirectories
  split
  · exact refl tree
  · split
    · exact refl tree
    · exact below _ _

theorem grown_createDirectories (path : String) : tree.Grown (tree.createDirectories path).2 :=
  rel_createDirectories Grown.refl (fun _ _ _ => Grown.trans) (fun _ _ _ => grown_makeDirectory)
    tree path

theorem within_createDirectories (path : String) : tree.Within (tree.createDirectories path).2 :=
  rel_createDirectories Within.refl (fun _ _ _ => Within.trans) (fun _ _ _ => within_makeDirectory)
    tree path

theorem leads_of_createDirectories (named : path ≠ "")
    (success : tree.createDirectories path = (.ok (), after)) :
    tree.pathFault? path = none ∧ after.leadsToDirectory (Path.names path) = true := by
  rw [createDirectories, if_neg named] at success
  split at success
  · cases (Prod.mk.inj success).1
  · next sound =>
    refine ⟨sound, ?_⟩
    cases above : (Path.components path).reverse.tail with
    | nil =>
      rw [above] at success
      exact leads_of_ensureDirectory success
    | cons last above =>
      simp only [above, ensureBelow] at success
      split at success
      · split at success
        · cases (Prod.mk.inj success).1
        · exact leads_of_ensureDirectory success
      · exact leads_of_ensureDirectory success

theorem createDirectories_of_leads (sound : tree.pathFault? path = none)
    (leads : tree.leadsToDirectory (Path.names path) = true) :
    tree.createDirectories path = (.ok (), tree) := by
  obtain ⟨place, reached, here⟩ := leadsToDirectory_eq_true_iff.mp leads
  rw [createDirectories]
  split
  · rfl
  · rw [sound]
    cases (Path.components path).reverse.tail with
    | nil => exact ensureDirectory_of_leads leads
    | cons last above =>
      simp only [ensureBelow, makeDirectory_eq_exists reached here]
      exact ensureDirectory_of_leads leads

/-- Directories that were created once are there in every later tree of the same shape. -/
theorem createDirectories_again {later : FileTree}
    (success : tree.createDirectories path = (.ok (), after)) (same : after.SameShape later) :
    later.createDirectories path = (.ok (), later) := by
  by_cases named : path = ""
  · simp [createDirectories, named]
  · obtain ⟨sound, leads⟩ := leads_of_createDirectories named success
    obtain ⟨place, reached, here⟩ := leadsToDirectory_eq_true_iff.mp leads
    have within := @within_createDirectories tree path
    rw [success] at within
    apply createDirectories_of_leads
    · rw [← same.within.pathFault?_eq, ← within.pathFault?_eq, sound]
    · exact leadsToDirectory_eq_true_iff.mpr
        ⟨place, same.within.walk reached, (same.directories place).mp here⟩

end Create

end DecoderGen.FileTree
