import DecoderGen.Proofs.LegalNames
import DecoderGen.Proofs.TreeOperations
import DecoderGen.Writing
import Mathlib.Data.List.TakeWhile

/-! # The files beside a target

A target, its temporary file and its backup are entries of one directory, however the path of that
directory is written: empty, with slashes at its end, or with names that stay in place. Where one of
their paths leads at all, it leads to the entry of its last name.
-/

namespace DecoderGen

namespace Path

/-- A name that leads to an entry of a directory. -/
structure Plain (name : String) : Prop where
  unsplit : '/' ∉ name.toList
  moves : stays name = false
  descends : name ≠ ".."

theorem Plain.of_toList {name : String} (unsplit : '/' ∉ name.toList) (some : name.toList ≠ [])
    (notHere : name.toList ≠ ['.']) (notAbove : name.toList ≠ ['.', '.']) : Plain name := by
  refine ⟨unsplit, ?_, ?_⟩
  · rw [stays, Bool.or_eq_false_iff, decide_eq_false_iff_not, decide_eq_false_iff_not]
    constructor
    · rintro rfl
      exact some rfl
    · rintro rfl
      exact notHere rfl
  · rintro rfl
    exact notAbove rfl

theorem Plain.relative {name : String} (plain : Plain name) : isAbsolute name = false := by
  rw [isAbsolute, decide_eq_false_iff_not]
  intro slash
  exact plain.unsplit (List.mem_of_head? slash)

theorem names_of_unsplit {name : String} (unsplit : '/' ∉ name.toList) : names name = [name] := by
  rw [names, List.splitOn_eq_singleton unsplit]
  simp

theorem names_append_slash (front back : String) :
    names (front ++ "/" ++ back) = names front ++ names back := by
  have characters : (front ++ "/" ++ back).toList = front.toList ++ '/' :: back.toList := by simp
  rw [names, characters, List.splitOn_append_cons_self, List.map_append]
  rfl

private theorem not_mem_of_mem_splitOn {characters part : List Char}
    (member : part ∈ characters.splitOn '/') : '/' ∉ part := by
  induction characters generalizing part with
  | nil =>
    rw [List.splitOn_nil, List.mem_singleton] at member
    simp [member]
  | cons symbol rest ih =>
    rw [List.splitOn_cons_eq_if_modifyHead] at member
    split at member
    · rcases List.mem_cons.mp member with rfl | later
      · simp
      · exact ih later
    · next other =>
      cases parts : rest.splitOn '/' with
      | nil => exact absurd parts (List.splitOn_ne_nil _ _)
      | cons head tail =>
        rw [parts, List.modifyHead_cons] at member
        rw [parts] at ih
        rcases List.mem_cons.mp member with rfl | later
        · have headFree := ih List.mem_cons_self
          simp only [List.mem_cons, not_or]
          refine ⟨fun slash => other ?_, headFree⟩
          simp [← slash]
        · exact ih (List.mem_cons_of_mem _ later)

theorem unsplit_of_mem_names {path name : String} (member : name ∈ names path) :
    '/' ∉ name.toList := by
  obtain ⟨part, among, rfl⟩ := List.mem_map.mp member
  rw [String.toList_ofList]
  exact not_mem_of_mem_splitOn among

theorem names_ofNames {list : List String} (some : list ≠ [])
    (unsplit : ∀ name ∈ list, '/' ∉ name.toList) : names (ofNames list) = list := by
  have parts : ∀ part ∈ list.map String.toList, '/' ∉ part := by
    intro part member
    obtain ⟨name, among, rfl⟩ := List.mem_map.mp member
    exact unsplit name among
  have characters : (ofNames list).toList = ['/'].intercalate (list.map String.toList) := by
    simp [ofNames]
  rw [names, characters, List.splitOn_intercalate '/' parts (by simpa using some), List.map_map]
  simp

/-- The names of a joined path are those of the directory, less an empty one at its end, and then
the joined name. -/
theorem names_join (directory : String) :
    ∃ above, (names directory = above ∨ names directory = above ++ [""]) ∧
      ∀ name, Plain name → names (join directory name) = above ++ [name] := by
  unfold join
  by_cases here : directory = ""
  · refine ⟨[], .inr (by rw [here]; rfl), fun name plain => ?_⟩
    simp [here, names_of_unsplit plain.unsplit]
  · by_cases slashed : directory.toList.getLast? = some '/'
    · obtain ⟨front, ending⟩ := List.getLast?_eq_some_iff.mp slashed
      have written : directory = String.ofList front ++ "/" ++ "" := by
        apply String.toList_inj.mp
        simp [ending]
      refine ⟨names (String.ofList front), .inr ?_, fun name plain => ?_⟩
      · rw [written, names_append_slash]
        rfl
      · simp only [plain.relative, here, slashed, Bool.false_or, decide_false, Bool.false_eq_true,
          if_false, if_true]
        rw [written, String.append_assoc, String.append_assoc, String.empty_append,
          ← String.append_assoc, names_append_slash, names_of_unsplit plain.unsplit]
    · refine ⟨names directory, .inl rfl, fun name plain => ?_⟩
      simp only [plain.relative, here, slashed, Bool.false_or, decide_false, Bool.false_eq_true,
        if_false]
      rw [names_append_slash, names_of_unsplit plain.unsplit]

/-- A joined path has no characters but those of its parts and a slash. -/
theorem mem_join {directory name : String} {symbol : Char}
    (member : symbol ∈ (join directory name).toList) :
    symbol ∈ directory.toList ∨ symbol = '/' ∨ symbol ∈ name.toList := by
  unfold join at member
  split_ifs at member
  · exact .inr (.inr member)
  · rw [String.toList_append, List.mem_append] at member
    exact member.imp_right .inr
  · rw [String.toList_append, String.toList_append, List.mem_append, List.mem_append] at member
    rcases member with (inside | slash) | last
    · exact .inl inside
    · exact .inr (.inl (by simpa using slash))
    · exact .inr (.inr last)

/-- What trimming drops stays in place. -/
theorem eq_trimmed_append (list : List String) :
    ∃ dropped, list = trimmed list ++ dropped ∧ ∀ name ∈ dropped, stays name = true := by
  cases list with
  | nil => exact ⟨[], rfl, by simp⟩
  | cons first rest =>
    refine ⟨(rest.reverse.takeWhile stays).reverse, ?_, ?_⟩
    · rw [trimmed, List.cons_append, ← List.reverse_append, List.takeWhile_append_dropWhile,
        List.reverse_reverse]
    · intro name member
      exact List.mem_takeWhile_imp (List.mem_reverse.mp member)

/-- Trimmed names end in an empty one only at the root. -/
theorem trimmed_eq_root {list above : List String} (listed : trimmed list = above ++ [""]) :
    trimmed list = [""] := by
  cases list with
  | nil => cases above <;> cases listed
  | cons first rest =>
    cases kept : rest.reverse.dropWhile stays with
    | nil =>
      rw [trimmed, kept] at listed ⊢
      have last := congrArg List.getLast? listed
      simp only [List.getLast?_concat] at last
      simpa using last
    | cons last before =>
      have moves := List.head?_dropWhile_not stays rest.reverse
      rw [kept] at moves
      rw [trimmed, kept, List.reverse_cons, ← List.cons_append] at listed
      obtain rfl := List.singleton_inj.mp (List.append_inj' listed rfl).2
      simp [stays] at moves

/-- The names of a sibling: those of the directory without what stays in place at its end. -/
theorem names_sibling (path : String) {name : String} (plain : Plain name) :
    names (sibling path name) = trimmed (names path).dropLast ++ [name] := by
  have relative : isAbsolute name = false := plain.relative
  have alone : names name = [name] := names_of_unsplit plain.unsplit
  unfold sibling parent
  split
  · next root =>
    have written : join "/" name = "" ++ "/" ++ name := by simp [join, relative]
    rw [root, written, names_append_slash, alone]
    rfl
  · next notRoot =>
    by_cases none : trimmed (names path).dropLast = []
    · rw [none]
      simpa [join, ofNames] using alone
    · obtain ⟨above, listed, joined⟩ := names_join (ofNames (trimmed (names path).dropLast))
      rw [names_ofNames none fun part member => ?_] at listed
      · rcases listed with rfl | slashed
        · exact joined name plain
        · exact absurd (trimmed_eq_root slashed) notRoot
      · obtain ⟨dropped, split, _⟩ := eq_trimmed_append (names path).dropLast
        have among : part ∈ (names path).dropLast := by
          rw [split]
          exact List.mem_append_left _ member
        exact unsplit_of_mem_names ((List.dropLast_sublist _).subset among)

/-- The text of names with a slash behind each. -/
def opening (names : List String) : String :=
  String.ofList (names.flatMap fun name => name.toList ++ ['/'])

theorem opening_append (front back : List String) :
    opening (front ++ back) = opening front ++ opening back := by
  rw [opening, List.flatMap_append, String.ofList_append]
  rfl

/-- A path is the text of its names. -/
theorem eq_opening_append {path name : String} {above : List String}
    (listed : names path = above ++ [name]) : path = opening above ++ name := by
  have parts : (names path).map String.toList = path.toList.splitOn '/' := by
    simp [names, Function.comp_def]
  have whole : path.toList = ['/'].intercalate ((above ++ [name]).map String.toList) := by
    rw [← listed, parts, List.intercalate_splitOn]
  apply String.toList_inj.mp
  rw [whole, opening, String.toList_append, String.toList_ofList]
  clear listed whole
  induction above with
  | nil => simp
  | cons part above ih =>
    have rest : (above ++ [name]).map String.toList ≠ [] := by simp
    obtain ⟨next, later, split⟩ := List.exists_cons_of_ne_nil rest
    rw [List.cons_append, List.map_cons, split, List.intercalate_cons_cons, ← split, ih]
    simp

end Path

namespace FileTree

section Walk

variable {tree : FileTree} {place found : Place}

theorem step_eq_ok_iff {name : String} (plain : Path.Plain name) :
    tree.step place name = .ok found ↔
      tree.get? place = some .directory ∧ tree.refusesName name = false ∧
        found = place ++ [name] := by
  unfold step
  split
  · next absent => simp [absent]
  · next blocked => simp [blocked]
  · next here =>
    simp only [plain.moves, plain.descends, Bool.false_eq_true, if_false, here, true_and]
    split
    · next refused => simp [refused]
    · next allowed => simp [allowed, eq_comm]

end Walk

/-- A place is the entry of a name in the directory that a path leads to. -/
def IsEntry (tree : FileTree) (directory name : String) (place : Place) : Prop :=
  ∃ above, tree.walk [] (Path.names directory) = .ok above ∧
    tree.get? above = some .directory ∧ place = above ++ [name]

theorem SameShape.isEntry {one other : FileTree} (same : one.SameShape other)
    {directory name : String} {place : Place} (entry : one.IsEntry directory name place) :
    other.IsEntry directory name place := by
  obtain ⟨above, reached, here, rfl⟩ := entry
  exact ⟨above, same.within.walk reached, (same.directories above).mp here, rfl⟩

namespace IsEntry

variable {tree : FileTree} {directory name : String} {place : Place}

/-- One place is the entry of one name only. -/
theorem name_unique {second : String} (first : tree.IsEntry directory name place)
    (again : tree.IsEntry directory second place) : name = second := by
  obtain ⟨above, _, _, rfl⟩ := first
  obtain ⟨_, _, _, same⟩ := again
  exact List.singleton_inj.mp (List.append_inj' same rfl).2

/-- One name has one entry. -/
theorem unique {other : Place} (first : tree.IsEntry directory name place)
    (again : tree.IsEntry directory name other) : place = other := by
  obtain ⟨above, reached, _, rfl⟩ := first
  obtain ⟨_, reachedAgain, _, rfl⟩ := again
  rw [Except.ok.inj (reached.symm.trans reachedAgain)]

theorem ne_root (entry : tree.IsEntry directory name place) : place ≠ [] := by
  obtain ⟨above, _, _, rfl⟩ := entry
  simp

end IsEntry

section Located

variable {tree : FileTree} {directory name : String} {place : Place}

theorem pathFault?_of_locate {path : String} (located : tree.locate path = .ok place) :
    tree.pathFault? path = none := by
  unfold locate at located
  split at located
  · cases located
  · next sound => exact sound

private theorem walk_of_locate {path : String} (located : tree.locate path = .ok place) :
    tree.walk [] (Path.names path) = .ok place := by
  unfold locate at located
  split at located
  · cases located
  · exact located

/-- An empty name behind the others leads nowhere else. -/
private theorem walk_of_listed {list above : List String} (listed : list = above ∨ list = above ++ [""])
    (reached : tree.walk [] above = .ok place) (here : tree.get? place = some .directory) :
    tree.walk [] list = .ok place := by
  rcases listed with rfl | rfl
  · exact reached
  · rw [walk_append_eq_ok_iff]
    exact ⟨place, reached, walk_stays here (by simp [Path.stays])⟩

theorem isEntry_of_locate_join (plain : Path.Plain name)
    (located : tree.locate (Path.join directory name) = .ok place) :
    tree.IsEntry directory name place := by
  obtain ⟨above, listed, joined⟩ := Path.names_join directory
  have reached := walk_of_locate located
  rw [joined name plain, walk_append_eq_ok_iff] at reached
  obtain ⟨middle, climbed, last⟩ := reached
  rw [walk_singleton] at last
  obtain ⟨here, _, rfl⟩ := (step_eq_ok_iff plain).mp last
  exact ⟨middle, walk_of_listed listed climbed here, here, rfl⟩

/-- Where names that stay in place are dropped, the rest still leads there. -/
theorem walk_trimmed {above : List String} (reached : tree.walk [] above = .ok place) :
    tree.walk [] (Path.trimmed above) = .ok place := by
  obtain ⟨dropped, split, stays⟩ := Path.eq_trimmed_append above
  rw [split, walk_append_eq_ok_iff] at reached
  obtain ⟨middle, front, back⟩ := reached
  rw [front, eq_of_walk_stays stays back]

theorem walk_of_trimmed {above : List String}
    (reached : tree.walk [] (Path.trimmed above) = .ok place)
    (here : tree.get? place = some .directory) : tree.walk [] above = .ok place := by
  obtain ⟨dropped, split, stays⟩ := Path.eq_trimmed_append above
  rw [split, walk_append_eq_ok_iff]
  exact ⟨place, reached, walk_stays here stays⟩

/-- The names of a backup are those of the target up to the last. -/
theorem names_backupOf (plainBackup : Path.Plain s!".{name}.bak") {above : List String}
    (joined : Path.names (Path.join directory name) = above ++ [name]) :
    Path.names (Writing.backupOf (Path.join directory name)) =
      Path.trimmed above ++ [s!".{name}.bak"] := by
  have last : Path.fileName (Path.join directory name) = name := by simp [Path.fileName, joined]
  rw [Writing.backupOf, last, Path.names_sibling _ plainBackup, joined, List.dropLast_concat]

theorem isEntry_of_locate_backupOf (plain : Path.Plain name)
    (plainBackup : Path.Plain s!".{name}.bak")
    (located : tree.locate (Writing.backupOf (Path.join directory name)) = .ok place) :
    tree.IsEntry directory s!".{name}.bak" place := by
  obtain ⟨above, listed, joined⟩ := Path.names_join directory
  have reached := walk_of_locate located
  rw [names_backupOf plainBackup (joined name plain), walk_append_eq_ok_iff] at reached
  obtain ⟨middle, climbed, last⟩ := reached
  rw [walk_singleton] at last
  obtain ⟨here, _, rfl⟩ := (step_eq_ok_iff plainBackup).mp last
  exact ⟨middle, walk_of_listed listed (walk_of_trimmed climbed here) here, here, rfl⟩

theorem pathFault?_eq_none_iff {path : String} :
    tree.pathFault? path = none ↔
      '\x00' ∉ path.toList ∧ tree.refusesPath path = false ∧ path ≠ "" := by
  unfold pathFault?
  split
  · next nul => simp_all
  · next clean =>
    split
    · next long => simp_all
    · split <;> simp_all

/-- A limit that is kept is kept by what is no longer. -/
private theorem any_lt_eq_false_of_le {limits : Option Limits} {limit : Limits → Nat}
    {shorter longer : Nat} (kept : (limits.any fun limits => limit limits < longer) = false)
    (size : shorter ≤ longer) : (limits.any fun limits => limit limits < shorter) = false := by
  cases limits with
  | none => rfl
  | some limits =>
    simp only [Option.any_some, decide_eq_false_iff_not] at kept ⊢
    omega

theorem refusesPath_of_le {longer shorter : String} (allowed : tree.refusesPath longer = false)
    (size : shorter.utf8ByteSize ≤ longer.utf8ByteSize) : tree.refusesPath shorter = false :=
  any_lt_eq_false_of_le allowed size

theorem refusesName_of_le {longer shorter : String} (allowed : tree.refusesName longer = false)
    (size : shorter.utf8ByteSize ≤ longer.utf8ByteSize) : tree.refusesName shorter = false :=
  any_lt_eq_false_of_le allowed size

/-- What is put together from pieces of a sound path, and is no longer, is sound. -/
theorem pathFault?_eq_none_of_shorter {path shorter : String} (sound : tree.pathFault? path = none)
    (clean : '\x00' ∉ shorter.toList) (size : shorter.utf8ByteSize ≤ path.utf8ByteSize)
    (some : shorter ≠ "") : tree.pathFault? shorter = none := by
  obtain ⟨_, allowed, _⟩ := pathFault?_eq_none_iff.mp sound
  exact pathFault?_eq_none_iff.mpr ⟨clean, refusesPath_of_le allowed size, some⟩

/-- Where an entry of a directory can be reached, so can a sibling of its other entries whose name is
no longer. -/
theorem locate_sibling {entry other : String} (plain : Path.Plain name)
    (plainEntry : Path.Plain entry) (plainOther : Path.Plain other)
    (clean : '\x00' ∉ other.toList) (size : other.utf8ByteSize ≤ entry.utf8ByteSize)
    (located : tree.locate (Path.join directory entry) = .ok place) :
    ∃ found, tree.locate (Path.sibling (Path.join directory name) other) = .ok found := by
  obtain ⟨above, _, joined⟩ := Path.names_join directory
  have listed := Path.names_sibling (Path.join directory name) plainOther
  rw [joined name plain, List.dropLast_concat] at listed
  have sound : tree.pathFault? (Path.sibling (Path.join directory name) other) = none := by
    obtain ⟨dropped, split, _⟩ := Path.eq_trimmed_append above
    have whole := Path.eq_opening_append (joined entry plainEntry)
    rw [split, Path.opening_append] at whole
    have before := pathFault?_of_locate located
    have cleanEntry := (pathFault?_eq_none_iff.mp before).1
    rw [whole] at cleanEntry before
    rw [Path.eq_opening_append listed]
    refine pathFault?_eq_none_of_shorter before ?_ ?_ ?_
    · simp only [String.toList_append, List.mem_append, not_or] at cleanEntry ⊢
      exact ⟨cleanEntry.1.1, clean⟩
    · simp only [String.utf8ByteSize_append]
      omega
    · intro empty
      have moves := plainOther.moves
      rw [(String.append_eq_empty_iff.mp empty).2] at moves
      cases moves
  have reached := walk_of_locate located
  rw [joined entry plainEntry, walk_append_eq_ok_iff] at reached
  obtain ⟨middle, climbed, last⟩ := reached
  rw [walk_singleton] at last
  obtain ⟨here, allowed, rfl⟩ := (step_eq_ok_iff plainEntry).mp last
  refine ⟨middle ++ [other], ?_⟩
  rw [locate, sound]
  simp only
  rw [listed, walk_append_eq_ok_iff]
  refine ⟨middle, walk_trimmed climbed, ?_⟩
  rw [walk_singleton, step_eq_ok_iff plainOther]
  exact ⟨here, refusesName_of_le allowed size, rfl⟩

end Located

end FileTree

/-! ## The names of generated files -/

section SourceNames

/-- The name of a generated file: an identifier, then the ending of the language. -/
def IsSourceName (fileName : String) : Prop :=
  ∃ name : String, hasIdentifierForm name.toList = true ∧ fileName = name ++ ".sv"

variable {fileName other : String}

/-- A generated file is not hidden, and its name is one name. -/
theorem IsSourceName.toList (source : IsSourceName fileName) :
    (∃ first rest, fileName.toList = first :: rest ∧ first ≠ '.') ∧ '/' ∉ fileName.toList := by
  obtain ⟨name, form, rfl⟩ := source
  obtain ⟨first, rest, characters, start, _⟩ := eq_cons_of_hasIdentifierForm form
  refine ⟨⟨first, rest ++ ".sv".toList, by simp [characters], ?_⟩, ?_⟩
  · rintro rfl
    cases start
  · rw [String.toList_append, List.mem_append]
    rintro (inside | ending)
    · cases isIdentifierPart_of_hasIdentifierForm form inside
    · simp at ending

theorem IsSourceName.clean (source : IsSourceName fileName) : '\x00' ∉ fileName.toList := by
  obtain ⟨name, form, rfl⟩ := source
  rw [String.toList_append, List.mem_append]
  rintro (inside | ending)
  · cases isIdentifierPart_of_hasIdentifierForm form inside
  · simp at ending

theorem IsSourceName.plain (source : IsSourceName fileName) : Path.Plain fileName := by
  obtain ⟨⟨first, rest, characters, visible⟩, unsplit⟩ := source.toList
  apply Path.Plain.of_toList unsplit <;> simp [characters, visible]

theorem IsSourceName.plain_hidden (source : IsSourceName fileName) (ending : String)
    (unsplit : '/' ∉ ending.toList) : Path.Plain ("." ++ fileName ++ ending) := by
  obtain ⟨⟨first, rest, characters, visible⟩, unsplitName⟩ := source.toList
  apply Path.Plain.of_toList
  · simp [unsplitName, unsplit]
  all_goals simp [characters, visible]

theorem IsSourceName.ne_hidden (source : IsSourceName fileName) (ending : String) :
    fileName ≠ "." ++ other ++ ending := by
  obtain ⟨⟨first, rest, characters, visible⟩, _⟩ := source.toList
  intro same
  have split : fileName.toList = '.' :: (other.toList ++ ending.toList) := by simp [same]
  rw [characters] at split
  exact visible (List.cons.inj split).1

/-- Hidden names of two files are the same only for one file and one ending. -/
theorem hidden_inj {ending last : String}
    (sameLength : ending.toList.length = last.toList.length)
    (same : "." ++ fileName ++ ending = "." ++ other ++ last) :
    fileName = other ∧ ending = last := by
  have characters : fileName.toList ++ ending.toList = other.toList ++ last.toList := by
    simpa using congrArg String.toList same
  obtain ⟨names, endings⟩ := List.append_inj' characters sameLength
  exact ⟨String.toList_inj.mp names, String.toList_inj.mp endings⟩

end SourceNames

end DecoderGen
