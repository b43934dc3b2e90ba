import DecoderGen.FileTree

/-! # What file operations do to a tree

Trees are compared place by place. Every operation on files keeps the directories of a tree, and the
directories alone decide where a path leads. A place found once is therefore found again in every
later tree of a run.
-/

namespace DecoderGen.FileTree

section Places

/-- Looking up a place after all entries of another one were dropped. -/
private theorem lookup_filter_ne (entries : List (Place × Node)) (place other : Place) :
    (entries.filter (·.1 ≠ place)).lookup other =
      if other = place then none else entries.lookup other := by
  induction entries with
  | nil => simp
  | cons entry rest ih =>
    obtain ⟨found, node⟩ := entry
    by_cases dropped : found = place
    · subst dropped
      by_cases same : other = found
      · simpa [same] using ih
      · have differs : (other == found) = false := beq_eq_false_iff_ne.mpr same
        simpa [same, List.lookup_cons, differs] using ih
    · by_cases same : other = found
      · subst same
        simp [dropped]
      · have differs : (other == found) = false := beq_eq_false_iff_ne.mpr same
        simpa [dropped, List.lookup_cons, differs] using ih

theorem get?_insert (tree : FileTree) {place : Place} (below : place ≠ []) (node : Node)
    (other : Place) :
    (tree.insert place node).get? other = if other = place then some node else tree.get? other := by
  unfold get? insert
  by_cases root : other = []
  · simp [root, below.symm]
  · by_cases same : other = place
    · simp [same, below]
    · simp only [root, same, if_false, List.lookup_cons, beq_eq_false_iff_ne.mpr same]
      rw [lookup_filter_ne, if_neg same]

theorem get?_erase (tree : FileTree) {place : Place} (below : place ≠ []) (other : Place) :
    (tree.erase place).get? other = if other = place then none else tree.get? other := by
  unfold get? erase
  by_cases root : other = []
  · simp [root, below.symm]
  · simp only [root, if_false]
    exact lookup_filter_ne tree.entries place other

/-- The root is a directory, so a place without a directory lies below it. -/
theorem ne_root (tree : FileTree) {place : Place} (free : tree.get? place ≠ some .directory) :
    place ≠ [] := by
  rintro rfl
  exact free rfl

end Places

/-! ## Following names -/

section Walk

variable {tree : FileTree} {place found : Place}

theorem walk_append (tree : FileTree) (place : Place) (front back : List String) :
    tree.walk place (front ++ back) =
      match tree.walk place front with
      | .error fault => .error fault
      | .ok middle => tree.walk middle back := by
  induction front generalizing place with
  | nil => rfl
  | cons name rest ih =>
    simp only [List.cons_append, walk]
    cases tree.step place name with
    | error fault => rfl
    | ok next => exact ih next

theorem walk_append_eq_ok_iff {front back : List String} :
    tree.walk place (front ++ back) = .ok found ↔
      ∃ middle, tree.walk place front = .ok middle ∧ tree.walk middle back = .ok found := by
  rw [walk_append]
  cases tree.walk place front <;> simp

theorem walk_singleton (tree : FileTree) (place : Place) (name : String) :
    tree.walk place [name] = tree.step place name := by
  simp only [walk]
  cases tree.step place name <;> rfl

theorem step_stays {name : String} (here : tree.get? place = some .directory)
    (stays : Path.stays name = true) : tree.step place name = .ok place := by
  simp [step, here, stays]

/-- Names that stay in place keep to a directory. -/
theorem walk_stays {names : List String} (here : tree.get? place = some .directory)
    (stays : ∀ name ∈ names, Path.stays name = true) : tree.walk place names = .ok place := by
  induction names with
  | nil => rfl
  | cons name rest ih =>
    have stepped := step_stays here (stays name List.mem_cons_self)
    simp only [walk, stepped]
    exact ih fun later member => stays later (List.mem_cons_of_mem _ member)

/-- Names that stay in place lead nowhere else. -/
theorem eq_of_walk_stays {names : List String} (stays : ∀ name ∈ names, Path.stays name = true)
    (reached : tree.walk place names = .ok found) : found = place := by
  induction names with
  | nil => exact (Except.ok.inj reached).symm
  | cons name rest ih =>
    have stays := List.forall_mem_cons.mp stays
    simp only [walk, step, stays.1, if_true] at reached
    cases here : tree.get? place with
    | none => simp [here] at reached
    | some node =>
      cases node with
      | file contents => simp [here] at reached
      | directory =>
        simp only [here] at reached
        exact ih stays.2 reached

end Walk

/-! ## Trees of the same directories -/

/-- The directories of one tree are directories of another one with the same limits. -/
structure Within (one other : FileTree) : Prop where
  limits : one.limits = other.limits
  directories : ∀ place, one.get? place = some .directory → other.get? place = some .directory

namespace Within

variable {one other : FileTree}

theorem refl (tree : FileTree) : tree.Within tree := ⟨rfl, fun _ => id⟩

theorem trans {third : FileTree} (first : one.Within other) (second : other.Within third) :
    one.Within third :=
  ⟨first.limits.trans second.limits,
    fun place here => second.directories place (first.directories place here)⟩

/-- Following a name succeeds from a directory only, and then the limits alone decide. -/
theorem step (within : one.Within other) {place next : Place} {name : String}
    (found : one.step place name = .ok next) : other.step place name = .ok next := by
  unfold FileTree.step at found ⊢
  split at found
  · cases found
  · cases found
  · next here =>
    have refusal : one.refusesName name = other.refusesName name := by
      rw [refusesName, refusesName, within.limits]
    rw [within.directories place here, ← refusal]
    exact found

theorem walk (within : one.Within other) {place found : Place} {names : List String}
    (reached : one.walk place names = .ok found) : other.walk place names = .ok found := by
  induction names generalizing place with
  | nil => exact reached
  | cons name rest ih =>
    simp only [FileTree.walk] at reached ⊢
    split at reached
    · cases reached
    · next stepped =>
      rw [within.step stepped]
      exact ih reached

theorem pathFault?_eq (within : one.Within other) (path : String) :
    one.pathFault? path = other.pathFault? path := by
  rw [pathFault?, pathFault?, refusesPath, refusesPath, within.limits]

theorem locate (within : one.Within other) {path : String} {place : Place}
    (found : one.locate path = .ok place) : other.locate path = .ok place := by
  unfold FileTree.locate at found ⊢
  rw [← within.pathFault?_eq path]
  split at found
  · cases found
  · exact within.walk found

end Within

/-- The same directories and the same limits; files may differ. -/
structure SameShape (one other : FileTree) : Prop where
  limits : one.limits = other.limits
  directories : ∀ place, one.get? place = some .directory ↔ other.get? place = some .directory

namespace SameShape

variable {one other : FileTree}

theorem refl (tree : FileTree) : tree.SameShape tree := ⟨rfl, fun _ => Iff.rfl⟩

theorem symm (same : one.SameShape other) : other.SameShape one :=
  ⟨same.limits.symm, fun place => (same.directories place).symm⟩

theorem trans {third : FileTree} (first : one.SameShape other) (second : other.SameShape third) :
    one.SameShape third :=
  ⟨first.limits.trans second.limits,
    fun place => (first.directories place).trans (second.directories place)⟩

theorem within (same : one.SameShape other) : one.Within other :=
  ⟨same.limits, fun place => (same.directories place).mp⟩

theorem locate (same : one.SameShape other) {path : String} {place : Place}
    (found : one.locate path = .ok place) : other.locate path = .ok place :=
  same.within.locate found

/-- Where neither tree has a file, both have a directory or nothing. -/
theorem get?_eq (same : one.SameShape other) {place : Place}
    (noFile : ∀ contents, one.get? place ≠ some (.file contents))
    (noOther : ∀ contents, other.get? place ≠ some (.file contents)) :
    one.get? place = other.get? place := by
  cases found : one.get? place with
  | some node =>
    cases node with
    | file contents => exact absurd found (noFile contents)
    | directory => exact ((same.directories place).mp found).symm
  | none =>
    cases again : other.get? place with
    | none => rfl
    | some node =>
      cases node with
      | file contents => exact absurd again (noOther contents)
      | directory =>
        have directory := (same.directories place).mpr again
        rw [found] at directory
        cases directory

end SameShape

/-- A file over a place without a directory leaves all directories alone. -/
theorem sameShape_insert_file {tree : FileTree} {place : Place}
    (free : tree.get? place ≠ some .directory) (contents : ByteArray) :
    tree.SameShape (tree.insert place (.file contents)) := by
  refine ⟨rfl, fun other => ?_⟩
  rw [get?_insert tree (ne_root tree free)]
  by_cases same : other = place
  · simp [same, free]
  · simp [same]

theorem sameShape_erase {tree : FileTree} {place : Place}
    (free : tree.get? place ≠ some .directory) : tree.SameShape (tree.erase place) := by
  refine ⟨rfl, fun other => ?_⟩
  rw [get?_erase tree (ne_root tree free)]
  by_cases same : other = place
  · simp [same, free]
  · simp [same]

/-! ## When an operation succeeds -/

section Success

variable {tree after : FileTree} {path : String}

theorem isFile_eq_true_iff :
    tree.isFile path = true ↔
      ∃ place contents, tree.locate path = .ok place ∧ tree.get? place = some (.file contents) := by
  unfold isFile find?
  cases tree.locate path with
  | error fault => simp
  | ok place =>
    cases found : tree.get? place with
    | none => simp [found]
    | some node => cases node <;> simp [found]

theorem leadsToDirectory_eq_true_iff {names : List String} :
    tree.leadsToDirectory names = true ↔
      ∃ place, tree.walk [] names = .ok place ∧ tree.get? place = some .directory := by
  unfold leadsToDirectory
  cases tree.walk [] names with
  | error fault => simp
  | ok place =>
    cases found : tree.get? place with
    | none => simp [found]
    | some node => cases node <;> simp [found]

theorem write_eq_ok_iff {contents : ByteArray} :
    tree.write path contents = .ok after ↔
      ∃ place, tree.locate path = .ok place ∧ tree.get? place ≠ some .directory ∧
        after = tree.insert place (.file contents) := by
  unfold write
  cases tree.locate path with
  | error fault => simp
  | ok place =>
    cases found : tree.get? place with
    | none => simp [found, eq_comm]
    | some node => cases node <;> simp [found, eq_comm]

theorem remove_eq_ok_iff :
    tree.remove path = .ok after ↔
      ∃ place contents, tree.locate path = .ok place ∧
        tree.get? place = some (.file contents) ∧ after = tree.erase place := by
  unfold remove
  cases tree.locate path with
  | error fault => simp
  | ok place =>
    cases found : tree.get? place with
    | none => simp [found]
    | some node => cases node <;> simp [found, eq_comm]

theorem rename_eq_ok_iff {source target : String} :
    tree.rename source target = .ok after ↔
      ∃ sourcePlace targetPlace contents, tree.locate source = .ok sourcePlace ∧
        tree.locate target = .ok targetPlace ∧ tree.get? sourcePlace = some (.file contents) ∧
        tree.get? targetPlace ≠ some .directory ∧
        after = (tree.erase sourcePlace).insert targetPlace (.file contents) := by
  unfold rename
  cases tree.locate source with
  | error fault => simp
  | ok sourcePlace =>
    cases tree.locate target with
    | error fault => simp
    | ok targetPlace =>
      cases atSource : tree.get? sourcePlace with
      | none => simp [atSource]
      | some node =>
        cases atTarget : tree.get? targetPlace with
        | none => cases node <;> simp [atSource, atTarget, eq_comm]
        | some blocking => cases node <;> cases blocking <;> simp [atSource, atTarget, eq_comm]

end Success

/-! ## Moved and removed files -/

section Moved

variable {tree : FileTree} {source target : Place} {contents : ByteArray}

theorem get?_moved (held : tree.get? source = some (.file contents))
    (free : tree.get? target ≠ some .directory) (other : Place) :
    ((tree.erase source).insert target (.file contents)).get? other =
      if other = target then some (.file contents)
      else if other = source then none else tree.get? other := by
  have below : source ≠ [] := ne_root tree (by simp [held])
  rw [get?_insert _ (ne_root tree free), get?_erase tree below]

theorem sameShape_moved (held : tree.get? source = some (.file contents))
    (free : tree.get? target ≠ some .directory) :
    tree.SameShape ((tree.erase source).insert target (.file contents)) := by
  have vacated : tree.SameShape (tree.erase source) := sameShape_erase (by simp [held])
  have stillFree : (tree.erase source).get? target ≠ some .directory :=
    fun blocked => free ((vacated.directories target).mpr blocked)
  exact vacated.trans (sameShape_insert_file stillFree contents)

theorem sameShape_rename {after : FileTree} {origin goal : String}
    (renamed : tree.rename origin goal = .ok after) : tree.SameShape after := by
  obtain ⟨_, _, _, _, _, held, free, rfl⟩ := rename_eq_ok_iff.mp renamed
  exact sameShape_moved held free

theorem get?_rename {after : FileTree} {origin goal : String} {place : Place}
    (renamed : tree.rename origin goal = .ok after) (notSource : tree.locate origin ≠ .ok place)
    (notTarget : tree.locate goal ≠ .ok place) : after.get? place = tree.get? place := by
  obtain ⟨source, target, contents, atSource, atTarget, held, free, rfl⟩ :=
    rename_eq_ok_iff.mp renamed
  have awayFromSource : place ≠ source := by
    rintro rfl
    exact notSource atSource
  have awayFromTarget : place ≠ target := by
    rintro rfl
    exact notTarget atTarget
  rw [get?_moved held free, if_neg awayFromTarget, if_neg awayFromSource]

end Moved

/-- The tree after an operation whose failure is ignored. -/
def quietly (tree : FileTree) (operation : FileTree → Except FileFault FileTree) : FileTree :=
  match operation tree with
  | .ok after => after
  | .error _ => tree

section Quietly

variable {tree after : FileTree} {operation : FileTree → Except FileFault FileTree} {path : String}

theorem quietly_of_ok (success : operation tree = .ok after) : tree.quietly operation = after := by
  rw [quietly, success]

theorem quietly_of_error {fault : FileFault} (failed : operation tree = .error fault) :
    tree.quietly operation = tree := by
  rw [quietly, failed]

theorem sameShape_quietly_remove : tree.SameShape (tree.quietly (·.remove path)) := by
  cases outcome : tree.remove path with
  | error fault =>
    rw [quietly_of_error outcome]
    exact SameShape.refl tree
  | ok after =>
    obtain ⟨place, contents, _, held, rfl⟩ := remove_eq_ok_iff.mp outcome
    rw [quietly_of_ok outcome]
    exact sameShape_erase (by simp [held])

/-- Removing a path leaves no file where it leads, whether it succeeds or not. -/
theorem quietly_remove_ne_file {place : Place} (located : tree.locate path = .ok place)
    (contents : ByteArray) : (tree.quietly (·.remove path)).get? place ≠ some (.file contents) := by
  cases outcome : tree.remove path with
  | error fault =>
    rw [quietly_of_error outcome]
    intro held
    have removable : tree.remove path = .ok (tree.erase place) :=
      remove_eq_ok_iff.mpr ⟨place, contents, located, held, rfl⟩
    rw [outcome] at removable
    cases removable
  | ok after =>
    obtain ⟨found, _, located', held, rfl⟩ := remove_eq_ok_iff.mp outcome
    obtain rfl : place = found := Except.ok.inj (located.symm.trans located')
    rw [quietly_of_ok outcome, get?_erase tree (ne_root tree (by simp [held]))]
    simp

theorem get?_quietly_remove {place : Place} (elsewhere : tree.locate path ≠ .ok place) :
    (tree.quietly (·.remove path)).get? place = tree.get? place := by
  cases outcome : tree.remove path with
  | error fault => rw [quietly_of_error outcome]
  | ok after =>
    obtain ⟨found, _, located, held, rfl⟩ := remove_eq_ok_iff.mp outcome
    have differs : place ≠ found := by
      rintro rfl
      exact elsewhere located
    rw [quietly_of_ok outcome, get?_erase tree (ne_root tree (by simp [held])),
      if_neg differs]

theorem get?_quietly_rename {source target : String} {place : Place}
    (notSource : tree.locate source ≠ .ok place) (notTarget : tree.locate target ≠ .ok place) :
    (tree.quietly (·.rename source target)).get? place = tree.get? place := by
  cases outcome : tree.rename source target with
  | error fault => rw [quietly_of_error outcome]
  | ok after => rw [quietly_of_ok outcome, get?_rename outcome notSource notTarget]

end Quietly

end DecoderGen.FileTree
