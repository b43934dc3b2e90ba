import DecoderGen.Proofs.CompileStages
import DecoderGen.Proofs.CompletedWrite
import DecoderGen.Run

/-! # Runs and the file tree

A run reads the document of its table, compiles the table and only then touches the tree. Until the
files are written, and whenever they are not to be, the tree is the one it started from. A run that
wrote its files can be repeated: the second run finds the targets of the first, moves them aside,
writes the same contents and leaves the same tree.
-/

namespace DecoderGen

open FileTree Writing

/-- A path leads to a file with the document of a table. -/
def FileTree.HoldsTable (tree : FileTree) (path : String) (table : Table) : Prop :=
  ∃ contents text, tree.read path = .ok contents ∧ String.fromUTF8? contents = some text ∧
    Document.parse text = .ok table

/-- The table a configuration names is in the tree and compiles. -/
structure Config.Prepares (config : Config) (tree : FileTree) (path : String) (table : Table)
    (compilation : Compilation) : Prop where
  named : config.tablePath = some path
  held : tree.HoldsTable path table
  compiled : table.compile config = .ok compilation

/-- The ways in which a run ends before it writes. -/
inductive Config.StopsEarly (config : Config) (tree : FileTree) : Prop
  | noTable (absent : config.tablePath = none)
  | notLoaded {path : String} (named : config.tablePath = some path)
      (fails : ∀ table, ¬ tree.HoldsTable path table)
  | notCompiled {path : String} {table : Table} {fault : CompileFault}
      (named : config.tablePath = some path) (held : tree.HoldsTable path table)
      (refused : table.compile config = .error fault)
  | checkOnly (set : config.checkOnly = true)

/-! ## The stages of a run -/

section Stages

variable {config : Config} {path : String} {table : Table} {compilation : Compilation}
  {tree : FileTree} {workspace : Workspace}

/-- The table that a path leads to, or why there is none. -/
def FileTree.tableAt (tree : FileTree) (path : String) : Except RunFault Table :=
  match tree.read path with
  | .error fault => .error (.file ⟨path, fault⟩)
  | .ok contents =>
    match String.fromUTF8? contents with
    | none => .error (.file ⟨path, .notText⟩)
    | some text => (Document.parse text).mapError .document

theorem tableAt_eq_ok_iff : tree.tableAt path = .ok table ↔ tree.HoldsTable path table := by
  unfold FileTree.tableAt FileTree.HoldsTable
  cases tree.read path with
  | error fault => simp
  | ok contents =>
    cases decoded : String.fromUTF8? contents with
    | none => simp [decoded]
    | some text => cases parsed : Document.parse text <;> simp [decoded, parsed, Except.mapError]

theorem tree_reportAll (events : List Event) (workspace : Workspace) :
    ((reportAll events : StateM Workspace Unit).run workspace).2.tree = workspace.tree := by
  induction events generalizing workspace with
  | nil => rfl
  | cons event rest ih => exact ih _

/-- Loading looks the table up and leaves the tree alone. -/
theorem run_loadTable (path : String) (workspace : Workspace) :
    ∃ next : Workspace, next.tree = workspace.tree ∧
      (loadTable path : StateM Workspace _).run workspace = (workspace.tree.tableAt path, next) := by
  have read : (Storage.read path : StateM Workspace _).run workspace =
      (workspace.tree.read path, workspace) := rfl
  simp only [loadTable, readText, run_bind, read, FileTree.tableAt]
  cases workspace.tree.read path with
  | error fault => exact ⟨workspace, rfl, rfl⟩
  | ok contents =>
    simp only
    cases String.fromUTF8? contents with
    | none => exact ⟨workspace, rfl, rfl⟩
    | some text =>
      simp only [run_pure]
      cases Document.parse text with
      | error fault => exact ⟨workspace, rfl, rfl⟩
      | ok table =>
        exact ⟨{ workspace with events := workspace.events ++ [loadEvent path table] }, rfl, rfl⟩

theorem run_compileTable (table : Table) (config : Config) (workspace : Workspace) :
    ∃ next : Workspace, next.tree = workspace.tree ∧
      (compileTable table config : StateM Workspace _).run workspace =
        ((table.compile config).mapError .compile, next) := by
  refine ⟨_, tree_reportAll (table.compileEvents config) workspace, ?_⟩
  simp only [compileTable, run_bind]
  cases table.compile config <;> rfl

/-- A run with a table that compiles comes down to its last stage, on the tree it started from. -/
theorem run_of_prepares (prepares : config.Prepares workspace.tree path table compilation) :
    ∃ next : Workspace, next.tree = workspace.tree ∧
      (run config : StateM Workspace _).run workspace =
        (finish config table compilation : StateM Workspace _).run next := by
  obtain ⟨loaded, sameTree, loads⟩ := run_loadTable path workspace
  obtain ⟨next, stillSame, compiles⟩ := run_compileTable table config loaded
  rw [tableAt_eq_ok_iff.mpr prepares.held] at loads
  rw [prepares.compiled] at compiles
  refine ⟨next, stillSame.trans sameTree, ?_⟩
  simp only [run, prepares.named, run_bind, loads, compiles, Except.mapError]

/-- A run without a table that compiles fails and leaves the tree alone. -/
theorem run_of_not_prepares
    (fails : ∀ path table compilation, ¬ config.Prepares workspace.tree path table compilation) :
    ∃ fault, ∃ next : Workspace, next.tree = workspace.tree ∧
      (run config : StateM Workspace _).run workspace = (.error fault, next) := by
  cases named : config.tablePath with
  | none =>
    refine ⟨.compile (.config .noTablePath), workspace, rfl, ?_⟩
    simp only [run, named]
    rfl
  | some path =>
    obtain ⟨loaded, sameTree, loads⟩ := run_loadTable path workspace
    cases found : workspace.tree.tableAt path with
    | error fault =>
      rw [found] at loads
      refine ⟨fault, loaded, sameTree, ?_⟩
      simp only [run, named, run_bind, loads]
      rfl
    | ok table =>
      obtain ⟨next, stillSame, compiles⟩ := run_compileTable table config loaded
      cases compiled : table.compile config with
      | error fault =>
        rw [compiled] at compiles
        rw [found] at loads
        refine ⟨.compile fault, next, stillSame.trans sameTree, ?_⟩
        simp only [run, named, run_bind, loads, compiles]
        rfl
      | ok compilation =>
        exact absurd ⟨named, tableAt_eq_ok_iff.mp found, compiled⟩ (fails path table compilation)

/-- A table that is in the way of a stage does not prepare the run, whatever else is found. -/
theorem not_prepares_of_refused {fault : CompileFault} (named : config.tablePath = some path)
    (held : tree.HoldsTable path table) (refused : table.compile config = .error fault) :
    ∀ path table compilation, ¬ config.Prepares tree path table compilation := by
  rintro other found compilation ⟨again, there, compiled⟩
  obtain rfl : path = other := Option.some.inj (named.symm.trans again)
  obtain rfl : table = found := Except.ok.inj
    ((tableAt_eq_ok_iff.mpr held).symm.trans (tableAt_eq_ok_iff.mpr there))
  rw [refused] at compiled
  cases compiled

theorem finish_of_checkOnly (set : config.checkOnly = true) (workspace : Workspace) :
    ∃ next : Workspace, next.tree = workspace.tree ∧
      (finish config table compilation : StateM Workspace _).run workspace = (.ok [], next) := by
  refine ⟨{ workspace with events := workspace.events ++ [checkedEvent table compilation] }, rfl, ?_⟩
  simp only [finish, set, if_true]
  rfl

theorem exists_prepares_of_run {paths : List String}
    (success : ((run config : StateM Workspace _).run workspace).1 = .ok paths) :
    ∃ path table compilation, config.Prepares workspace.tree path table compilation := by
  by_contra none
  obtain ⟨fault, next, _, ran⟩ := run_of_not_prepares fun path table compilation prepares =>
    none ⟨path, table, compilation, prepares⟩
  rw [ran] at success
  cases success

theorem tree_run_of_not_prepares
    (fails : ∀ path table compilation, ¬ config.Prepares workspace.tree path table compilation) :
    ((run config : StateM Workspace _).run workspace).2.tree = workspace.tree := by
  obtain ⟨fault, next, same, ran⟩ := run_of_not_prepares fails
  rw [ran]
  exact same

theorem tree_run_of_stopsEarly (early : config.StopsEarly workspace.tree) :
    ((run config : StateM Workspace _).run workspace).2.tree = workspace.tree := by
  cases early with
  | noTable absent =>
    apply tree_run_of_not_prepares
    intro path table compilation prepares
    cases absent.symm.trans prepares.named
  | notLoaded named fails =>
    apply tree_run_of_not_prepares
    rintro path table compilation ⟨again, held, _⟩
    obtain rfl := Option.some.inj (named.symm.trans again)
    exact fails table held
  | notCompiled named held refused =>
    exact tree_run_of_not_prepares (not_prepares_of_refused named held refused)
  | checkOnly set =>
    by_cases prepared : ∃ path table compilation,
        config.Prepares workspace.tree path table compilation
    · obtain ⟨path, table, compilation, prepares⟩ := prepared
      obtain ⟨next, same, ran⟩ := run_of_prepares prepares
      obtain ⟨last, still, checked⟩ := @finish_of_checkOnly _ table compilation set next
      rw [ran, checked]
      exact still.trans same
    · exact tree_run_of_not_prepares fun path table compilation prepares =>
        prepared ⟨path, table, compilation, prepares⟩

/-- Without the check alone, the last stage is the writing of the files. -/
theorem finish_eq_ok_iff (unset : config.checkOnly = false) {paths : List String}
    {next : Workspace} :
    (finish config table compilation : StateM Workspace _).run workspace = (.ok paths, next) ↔
      (writeArtifacts config.outDir compilation.artifacts : StateM Workspace _).run workspace =
        (.ok paths, next) := by
  simp only [finish, unset, Bool.false_eq_true, if_false, run_bind]
  rcases (writeArtifacts config.outDir compilation.artifacts : StateM Workspace _).run workspace with
    ⟨result, last⟩
  cases result with
  | error failure => exact iff_of_false nofun nofun
  | ok written =>
    constructor
    all_goals
      rintro ⟨⟩
      rfl

end Stages

/-! ## A second run -/

section Again

variable {config : Config} {path : String} {table : Table} {compilation : Compilation}

/-- A place that the write of files uses: a target, its temporary file or its backup. -/
def IsUsed (tree : FileTree) (directory : String) (artifacts : Artifacts) (place : Place) : Prop :=
  (∃ artifact ∈ artifacts.toList, tree.IsEntry directory artifact.fileName place) ∨
    IsHidden tree directory artifacts place

/-- Compiled files have the names of source files, which differ. -/
theorem Table.compiled_fileNames (compiled : table.compile config = .ok compilation) :
    (∀ artifact ∈ compilation.artifacts.toList, IsSourceName artifact.fileName) ∧
      compilation.artifacts.types.fileName ≠ compilation.artifacts.decoder.fileName := by
  obtain ⟨styled, resolved, rfl, _, _, rfl⟩ := (table.compile_eq_ok_iff _ _).mp compiled
  have suits := (Style.fault?_eq_none_iff _ _).mp styled
  refine ⟨?_, fun same => suits.package ((String.append_left_inj ".sv").mp same)⟩
  intro artifact member
  simp only [Artifacts.toList, List.mem_cons, List.not_mem_nil, or_false] at member
  rcases member with rfl | rfl
  · exact ⟨_, suits.hasIdentifierForm_package, rfl⟩
  · exact ⟨_, hasIdentifierForm_of_isIdentifier resolved.table.wellFormed.moduleName, rfl⟩

theorem read_eq_ok_iff {tree : FileTree} {contents : ByteArray} :
    tree.read path = .ok contents ↔
      ∃ place, tree.locate path = .ok place ∧ tree.get? place = some (.file contents) := by
  unfold FileTree.read
  cases tree.locate path with
  | error fault => simp
  | ok place =>
    cases found : tree.get? place with
    | none => simp [found]
    | some node => cases node <;> simp [found]

/-- A file that the write does not use reads the same afterwards. -/
theorem Writing.Completed.read {directory : String} {artifacts : Artifacts}
    {base after : FileTree} {contents : ByteArray}
    (named : ∀ artifact ∈ artifacts.toList, IsSourceName artifact.fileName)
    (completed : Completed directory artifacts base after)
    (elsewhere : ∀ place, base.locate path = .ok place → ¬ IsUsed base directory artifacts place)
    (held : base.read path = .ok contents) : after.read path = .ok contents := by
  obtain ⟨place, located, file⟩ := read_eq_ok_iff.mp held
  have unused := elsewhere place located
  have kept := completed.kept place fun artifact member target =>
    unused (.inl ⟨artifact, member, isEntry_target (named artifact member) target⟩)
  refine read_eq_ok_iff.mpr ⟨place, completed.shape.locate located, ?_⟩
  rw [kept.resolve_right fun hidden => unused (.inr hidden.1), file]

/-- The table is still there after a write that does not use its place, and compiles as before. -/
theorem Config.Prepares.of_completed {base made after : FileTree}
    (prepares : config.Prepares base path table compilation)
    (created : base.createDirectories config.outDir = (.ok (), made))
    (completed : Writing.Completed config.outDir compilation.artifacts made after)
    (elsewhere : ∀ place, base.locate path = .ok place →
      ¬ IsUsed made config.outDir compilation.artifacts place) :
    config.Prepares after path table compilation := by
  obtain ⟨named, _⟩ := Table.compiled_fileNames prepares.compiled
  have grown := @FileTree.grown_createDirectories base config.outDir
  have within := @FileTree.within_createDirectories base config.outDir
  simp only [created] at grown within
  obtain ⟨tablePath, ⟨contents, text, held, isText, parsed⟩, compiled⟩ := prepares
  refine ⟨tablePath, ⟨contents, text, ?_, isText, parsed⟩, compiled⟩
  obtain ⟨place, located, file⟩ := read_eq_ok_iff.mp held
  have here := within.locate located
  refine completed.read named (fun other again => ?_)
    (read_eq_ok_iff.mpr ⟨place, here, grown.get?_eq_some file⟩)
  rw [← Except.ok.inj (here.symm.trans again)]
  exact elsewhere place located

/-- A run that wrote its files can be repeated, and the second run changes nothing. -/
theorem run_again {workspace after : Workspace} {paths : List String}
    (unset : config.checkOnly = false)
    (prepares : config.Prepares workspace.tree path table compilation)
    (ran : (run config : StateM Workspace _).run workspace = (.ok paths, after))
    (elsewhere : ∀ place, workspace.tree.locate path = .ok place →
      ¬ IsUsed (workspace.tree.createDirectories config.outDir).2 config.outDir
        compilation.artifacts place)
    (free : ∀ artifact ∈ compilation.artifacts.toList, ∀ place,
      (workspace.tree.createDirectories config.outDir).2.IsEntry config.outDir
        ("." ++ artifact.fileName ++ ".bak") place →
      (workspace.tree.createDirectories config.outDir).2.get? place = none) :
    ∃ last, (run config : StateM Workspace _).run after = (.ok paths, last) ∧
      after.tree.Identical last.tree := by
  obtain ⟨named, distinct⟩ := Table.compiled_fileNames prepares.compiled
  obtain ⟨loaded, sameTree, stages⟩ := run_of_prepares prepares
  rw [stages, finish_eq_ok_iff unset] at ran
  obtain ⟨made, created, rfl, writes⟩ := writes_of_run ran
  rw [sameTree] at created
  simp only [created] at elsewhere free
  have completed := writes.completed named distinct
  obtain ⟨again, second, identical⟩ := writes.again named distinct free
  have prepared := prepares.of_completed created completed elsewhere
  obtain ⟨next, nextTree, stages⟩ := run_of_prepares prepared
  have ready : next.tree.createDirectories config.outDir = (.ok (), next.tree) := by
    rw [nextTree]
    exact createDirectories_again created completed.shape
  rw [← nextTree] at second identical
  obtain ⟨last, wrote, rfl⟩ := run_of_writes ready second
  refine ⟨last, ?_, nextTree ▸ identical⟩
  rw [stages, finish_eq_ok_iff unset]
  exact wrote

end Again

/-- A run changes the tree at its end or not at all. It leaves the tree alone whenever it stops
before it writes; with the check alone, a table that compiles is a success without files. And what a
run has written, a second run with the same configuration leaves as it is, provided that the table
is not at a place the write uses, and that nothing stands at a backup once the directories are
made. -/
theorem run_changes_tree_once (config : Config) (workspace : Workspace) :
    let outcome := (run config : StateM Workspace _).run workspace
    let made := (workspace.tree.createDirectories config.outDir).2
    (config.StopsEarly workspace.tree → outcome.2.tree = workspace.tree) ∧
    ∀ path table compilation, config.Prepares workspace.tree path table compilation →
      (config.checkOnly = true → outcome.1 = .ok []) ∧
      ∀ paths, config.checkOnly = false → outcome.1 = .ok paths →
        (∀ place, workspace.tree.locate path = .ok place →
          ¬ IsUsed made config.outDir compilation.artifacts place) →
        (∀ artifact ∈ compilation.artifacts.toList, ∀ place,
          made.IsEntry config.outDir ("." ++ artifact.fileName ++ ".bak") place →
            made.get? place = none) →
        let again := (run config : StateM Workspace _).run outcome.2
        again.1 = .ok paths ∧ outcome.2.tree.Identical again.2.tree := by
  intro outcome made
  refine ⟨tree_run_of_stopsEarly, fun path table compilation prepares => ⟨fun set => ?_, ?_⟩⟩
  · obtain ⟨next, _, ran⟩ := run_of_prepares prepares
    obtain ⟨last, _, checked⟩ := @finish_of_checkOnly _ table compilation set next
    exact congrArg Prod.fst (ran.trans checked)
  · intro paths unset success elsewhere free
    have ran : (run config : StateM Workspace _).run workspace = (.ok paths, outcome.2) := by
      rw [← success]
      rfl
    obtain ⟨last, again, identical⟩ := run_again unset prepares ran elsewhere free
    exact ⟨congrArg Prod.fst again, (congrArg Prod.snd again) ▸ identical⟩

/-- The document of a table without rules. -/
def decDocument : String :=
  "\x7b\"module_name\": \"dec\", \"input\": 1, \"output\": \x7b\"type_name\": \"ctrl_t\", " ++
    "\"fields\": [\"a\"]\x7d, \"decodes\": []\x7d"

/-- Write the decoder of the table in `t.json` to a directory. -/
def decConfig (outDir : String) : Config := { tablePath := some "t.json", outDir }

/-- A table and an output directory that holds an older decoder. -/
def outdated : Workspace where
  tree.entries :=
    [(["t.json"], .file decDocument.toUTF8), (["out"], .directory),
      (["out", "dec.sv"], .file "old".toUTF8)]

private theorem eq_ok_of_toOption {paths : List String} {result : Except RunFault (List String)}
    (known : result.toOption = some paths) : result = .ok paths := by
  cases result with
  | error fault => cases known
  | ok found => rw [Option.some.inj known]

/-- An entry of a directory that was found. -/
private theorem eq_of_isEntry {tree : FileTree} {directory name : String} {above place : Place}
    (reached : tree.walk [] (Path.names directory) = .ok above)
    (entry : tree.IsEntry directory name place) : place = above ++ [name] := by
  obtain ⟨_, again, _, rfl⟩ := entry
  rw [Except.ok.inj (reached.symm.trans again)]

/-- The table at the root is none of the files below a directory. -/
private theorem table_not_used {tree : FileTree} {directory name : String} {artifacts : Artifacts}
    (reached : tree.walk [] (Path.names directory) = .ok [name]) :
    ¬ IsUsed tree directory artifacts ["t.json"] := by
  rintro (⟨artifact, _, entry⟩ | ⟨artifact, _, ending, _, entry⟩)
  · cases eq_of_isEntry reached entry
  · cases eq_of_isEntry reached entry

/-- The older decoder is moved aside in the first run, and both new files in the second one. -/
theorem outdated_run_again :
    let outcome := (run (decConfig "out") : StateM Workspace _).run outdated
    let again := (run (decConfig "out") : StateM Workspace _).run outcome.2
    outcome.1 = .ok ["out/ctrl_t_pkg.sv", "out/dec.sv"] ∧
      again.1 = .ok ["out/ctrl_t_pkg.sv", "out/dec.sv"] ∧
      outcome.2.tree.Identical again.2.tree := by
  intro outcome again
  have success : outcome.1 = .ok ["out/ctrl_t_pkg.sv", "out/dec.sv"] :=
    eq_ok_of_toOption (by decide +kernel)
  obtain ⟨path, table, compilation, prepares⟩ := exists_prepares_of_run success
  have effects := (run_changes_tree_once (decConfig "out") outdated).2 path table compilation
    prepares
  have made : outdated.tree.createDirectories "out" = (.ok (), outdated.tree) :=
    createDirectories_of_leads (by decide +kernel) (by decide +kernel)
  have reached : outdated.tree.walk [] (Path.names "out") = .ok ["out"] := by decide +kernel
  refine ⟨success, effects.2 _ rfl success ?_ ?_⟩
  · intro place located
    obtain rfl := Option.some.inj prepares.named
    have found : outdated.tree.locate "t.json" = .ok ["t.json"] := by decide +kernel
    rw [← Except.ok.inj (found.symm.trans located), decConfig, made]
    exact table_not_used reached
  · intro artifact _ place entry
    rw [decConfig, made] at entry ⊢
    have visible : "dec.sv" ≠ "." ++ artifact.fileName ++ ".bak" :=
      IsSourceName.ne_hidden ⟨"dec", by decide, by decide⟩ ".bak"
    rw [eq_of_isEntry reached entry]
    simp [get?, outdated, visible.symm]

/-- Only the table, and no output directory yet. -/
def bare : Workspace where
  tree.entries := [(["t.json"], .file decDocument.toUTF8)]

/-- It is not enough that nothing stands at a backup before the run. A path to the output directory
may lead through one; the directory made there does not hinder the first run, which finds no target
to move aside, and blocks the second. -/
theorem second_run_blocked_at_backup :
    ¬ ∀ (config : Config) (workspace : Workspace) (path : String) (table : Table)
        (compilation : Compilation) (paths : List String),
      config.Prepares workspace.tree path table compilation →
      config.checkOnly = false →
      ((run config : StateM Workspace _).run workspace).1 = .ok paths →
      (∀ place, workspace.tree.locate path = .ok place →
        ¬ IsUsed (workspace.tree.createDirectories config.outDir).2 config.outDir
          compilation.artifacts place) →
      (∀ artifact ∈ compilation.artifacts.toList, ∀ place,
        (workspace.tree.createDirectories config.outDir).2.IsEntry config.outDir
          ("." ++ artifact.fileName ++ ".bak") place → workspace.tree.get? place = none) →
      ((run config : StateM Workspace _).run
        ((run config : StateM Workspace _).run workspace).2).1 = .ok paths := by
  intro always
  let config := decConfig "out/.dec.sv.bak/.."
  have success : ((run config : StateM Workspace _).run bare).1 =
      .ok ["out/.dec.sv.bak/../ctrl_t_pkg.sv", "out/.dec.sv.bak/../dec.sv"] :=
    eq_ok_of_toOption (by decide +kernel)
  have reached : (bare.tree.createDirectories config.outDir).2.walk [] (Path.names config.outDir) =
      .ok ["out"] := by decide +kernel
  obtain ⟨path, table, compilation, prepares⟩ := exists_prepares_of_run success
  have second := always config bare path table compilation _ prepares rfl success ?_ ?_
  · have failed : ((run config : StateM Workspace _).run
        ((run config : StateM Workspace _).run bare).2).1.toOption = none := by decide +kernel
    rw [second] at failed
    cases failed
  · intro place located
    obtain rfl := Option.some.inj prepares.named
    have found : bare.tree.locate "t.json" = .ok ["t.json"] := by decide +kernel
    rw [← Except.ok.inj (found.symm.trans located)]
    exact table_not_used reached
  · intro artifact _ place entry
    rw [eq_of_isEntry reached entry]
    simp [get?, bare]

end DecoderGen
