import DecoderGen.Proofs.ArgumentItems
import Mathlib.Data.List.Nodup

/-! # The request that a command line makes

The items of a command line make a request if there is one path and nothing but inputs to evaluate
is given twice. The request has the values that are given and, for what is not given, the defaults.
Reading gathers the items into one place each, which has to be free before; so reading succeeds
exactly on the command lines that make a request, and returns it.
-/

namespace DecoderGen.CommandLine

open Arguments

/-- The table paths among items. -/
def pathsIn (items : List Item) : List String :=
  items.filterMap fun
    | .path path => some path
    | _ => none

/-- The switches among items. -/
def switchesIn (items : List Item) : List Switch :=
  items.filterMap fun
    | .switch switch => some switch
    | _ => none

/-- The values that items give to a setting, in order. -/
def valuesIn (setting : Setting) (items : List Item) : List String :=
  items.filterMap fun
    | .setting other value => if other = setting then some value else none
    | _ => none

/-- A setting has the one value it is given, or else its default. -/
def Chosen (given : List String) (otherwise value : String) : Prop :=
  given = [] ∧ value = otherwise ∨ given = [value]

/-- A name of a backend, in letters of either case. -/
def NamesBackend (name : String) (backend : Backend) : Prop :=
  name.toList.map Char.toLower =
    match backend with
    | .native => "native".toList
    | .espresso => "espresso".toList

instance (name : String) (backend : Backend) : Decidable (NamesBackend name backend) :=
  inferInstanceAs (Decidable (_ = _))

/-- The request that items make: they have one path, no switch twice and at most one value for each
setting except the inputs to evaluate, and the request is what they say, with the defaults for what
they leave open. -/
structure Makes (items : List Item) (request : Request) : Prop where
  table : pathsIn items = [request.table]
  tableNonempty : request.table ≠ ""
  switchesOnce : (switchesIn items).Nodup
  tablePath : request.config.tablePath = some request.table
  outDir : Chosen (valuesIn .outDir items) "." request.config.outDir
  outDirNonempty : request.config.outDir ≠ ""
  backend : valuesIn .backend items = [] ∧ request.config.backend = .native ∨
    ∃ name, valuesIn .backend items = [name] ∧ NamesBackend name request.config.backend
  inputPort : Chosen (valuesIn .inputPort items) "instr_i" request.config.style.inputPort
  outputPort : Chosen (valuesIn .outputPort items) "decode_o" request.config.style.outputPort
  packageSuffix : request.config.style.packageSuffix = "_pkg"
  indent : request.config.style.indent = "  "
  header : request.config.style.header = true ↔ .noHeader ∉ switchesIn items
  strict : request.config.strict = true ↔ .strict ∈ switchesIn items
  checkOnly : request.config.checkOnly = true ↔
    .check ∈ switchesIn items ∨ valuesIn .eval items ≠ []
  evals : request.evals = valuesIn .eval items
  verbose : request.verbose = true ↔ .verbose ∈ switchesIn items

/-- What items add to what was given before them. Each thing that may be given once has a place for
one value, so what was there before and what the items give have to fit into it together. -/
structure Adds (given : Arguments) (items : List Item) (result : Arguments) : Prop where
  table : given.table.toList ++ pathsIn items = result.table.toList
  tableNonempty : ∀ path ∈ pathsIn items, path ≠ ""
  outDir : given.outDir.toList ++ valuesIn .outDir items = result.outDir.toList
  outDirNonempty : ∀ path ∈ valuesIn .outDir items, path ≠ ""
  backend : given.backend.toList ++ (valuesIn .backend items).filterMap Backend.ofName? =
    result.backend.toList
  backendNamed : ∀ name ∈ valuesIn .backend items, ∃ backend, Backend.ofName? name = some backend
  evals : given.evals ++ valuesIn .eval items = result.evals
  inputPort : given.inputPort.toList ++ valuesIn .inputPort items = result.inputPort.toList
  outputPort : given.outputPort.toList ++ valuesIn .outputPort items = result.outputPort.toList
  switches : (switchesIn items).reverse ++ given.switches = result.switches
  switchesOnce : (switchesIn items).Nodup
  switchesNew : ∀ switch ∈ switchesIn items, switch ∉ given.switches

/-- A value is stored only where none was given before. -/
theorem once_eq_ok_iff {α : Type} (given : Option α) (value : α) (next : Arguments)
    (store : Option α → Arguments) :
    (do return store (← once given value)) = Except.ok next ↔
      given = none ∧ next = store (some value) := by
  cases given with
  | none =>
    constructor
    · intro taken
      cases taken
      exact ⟨rfl, rfl⟩
    · rintro ⟨_, rfl⟩
      rfl
  | some earlier =>
    constructor
    · intro taken
      cases taken
    · rintro ⟨free, _⟩
      cases free

theorem nonempty_once_eq_ok_iff (given : Option String) (path : String) (next : Arguments)
    (store : Option String → Arguments) :
    (do return store (← once given (← nonempty path))) = Except.ok next ↔
      path ≠ "" ∧ given = none ∧ next = store (some path) := by
  rw [← once_eq_ok_iff]
  unfold nonempty
  split
  · next empty =>
    constructor
    · intro taken
      cases taken
    · rintro ⟨filled, _⟩
      exact absurd empty filled
  · next filled => exact ⟨fun taken => ⟨filled, taken⟩, And.right⟩

/-- What an item needs and changes. -/
def Takes (given next : Arguments) : Item → Prop
  | .path path => path ≠ "" ∧ given.table = none ∧ next = { given with table := some path }
  | .switch switch =>
    switch ∉ given.switches ∧ next = { given with switches := switch :: given.switches }
  | .setting .outDir value =>
    value ≠ "" ∧ given.outDir = none ∧ next = { given with outDir := some value }
  | .setting .backend value => ∃ backend, Backend.ofName? value = some backend ∧
    given.backend = none ∧ next = { given with backend := some backend }
  | .setting .eval value => next = { given with evals := given.evals ++ [value] }
  | .setting .inputPort value =>
    given.inputPort = none ∧ next = { given with inputPort := some value }
  | .setting .outputPort value =>
    given.outputPort = none ∧ next = { given with outputPort := some value }

theorem take_eq_ok_iff (given : Arguments) (item : Item) (next : Arguments) :
    given.take item = .ok next ↔ Takes given next item := by
  cases item with
  | path path => exact nonempty_once_eq_ok_iff given.table path next _
  | switch switch =>
    rw [take, turnOn, Takes]
    split
    · next present =>
      constructor
      · intro taken
        cases taken
      · rintro ⟨absent, _⟩
        exact absurd present absent
    · next absent => rw [Except.ok.injEq, eq_comm, and_iff_right absent]
  | setting setting value =>
    cases setting with
    | outDir => exact nonempty_once_eq_ok_iff given.outDir value next _
    | backend =>
      rw [take, Arguments.set, Takes]
      cases Backend.ofName? value with
      | none => simp
      | some backend =>
        simp only [Option.some.injEq, exists_eq_left']
        exact once_eq_ok_iff given.backend backend next _
    | eval =>
      rw [take, Arguments.set, Takes, Except.ok.injEq, eq_comm]
    | inputPort => exact once_eq_ok_iff given.inputPort value next _
    | outputPort => exact once_eq_ok_iff given.outputPort value next _

/-- A value behind one that was given before does not fit into a single place. -/
theorem toList_append_cons_iff {α : Type} (given result : Option α) (value : α) (later : List α) :
    given.toList ++ value :: later = result.toList ↔
      given = none ∧ (some value).toList ++ later = result.toList := by
  cases given <;> cases result <;> simp

theorem toList_injective {α : Type} {one other : Option α} (same : one.toList = other.toList) :
    one = other := by
  cases one <;> cases other <;> simp_all

section Adding

variable {given result : Arguments} {items : List Item}

/-- Without items nothing is added. -/
theorem adds_nil_iff : Adds given [] result ↔ given = result := by
  constructor
  · intro adds
    rcases given with ⟨⟩
    rcases result with ⟨⟩
    rw [Arguments.mk.injEq]
    have unchanged : ∀ {α : Type} {one other : Option α}, one.toList ++ [] = other.toList →
        one = other := fun same => toList_injective ((List.append_nil _).symm.trans same)
    exact ⟨unchanged adds.table, unchanged adds.outDir, unchanged adds.backend,
      (List.append_nil _).symm.trans adds.evals, unchanged adds.inputPort,
      unchanged adds.outputPort, adds.switches⟩
  · rintro rfl
    exact ⟨List.append_nil _, nofun, List.append_nil _, nofun, List.append_nil _, nofun,
      List.append_nil _, List.append_nil _, List.append_nil _, rfl, List.nodup_nil, nofun⟩

theorem adds_path_iff (path : String) :
    Adds given (.path path :: items) result ↔
      ∃ next, Takes given next (.path path) ∧ Adds next items result := by
  constructor
  · intro adds
    obtain ⟨free, table⟩ := (toList_append_cons_iff ..).mp adds.table
    obtain ⟨filled, others⟩ := List.forall_mem_cons.mp adds.tableNonempty
    exact ⟨_, ⟨filled, free, rfl⟩, { adds with table, tableNonempty := others }⟩
  · rintro ⟨_, ⟨filled, free, rfl⟩, adds⟩
    exact { adds with
      table := (toList_append_cons_iff ..).mpr ⟨free, adds.table⟩
      tableNonempty := List.forall_mem_cons.mpr ⟨filled, adds.tableNonempty⟩ }

theorem adds_switch_iff (switch : Switch) :
    Adds given (.switch switch :: items) result ↔
      ∃ next, Takes given next (.switch switch) ∧ Adds next items result := by
  have reversed : (switch :: switchesIn items).reverse ++ given.switches =
      (switchesIn items).reverse ++ switch :: given.switches := by simp
  constructor
  · intro adds
    obtain ⟨absent, others⟩ := List.forall_mem_cons.mp adds.switchesNew
    obtain ⟨first, once⟩ := List.nodup_cons.mp adds.switchesOnce
    refine ⟨_, ⟨absent, rfl⟩, { adds with
      switches := reversed.symm.trans adds.switches
      switchesOnce := once
      switchesNew := fun other member => ?_ }⟩
    rw [List.mem_cons, not_or]
    exact ⟨fun same => first (same ▸ member), others other member⟩
  · rintro ⟨_, ⟨absent, rfl⟩, adds⟩
    have others : ∀ other ∈ switchesIn items, other ≠ switch ∧ other ∉ given.switches :=
      fun other member => by simpa using adds.switchesNew other member
    exact { adds with
      switches := reversed.trans adds.switches
      switchesOnce := List.nodup_cons.mpr
        ⟨fun member => (others switch member).1 rfl, adds.switchesOnce⟩
      switchesNew := List.forall_mem_cons.mpr
        ⟨absent, fun other member => (others other member).2⟩ }

theorem adds_setting_iff (setting : Setting) (value : String) :
    Adds given (.setting setting value :: items) result ↔
      ∃ next, Takes given next (.setting setting value) ∧ Adds next items result := by
  cases setting with
  | outDir =>
    constructor
    · intro adds
      obtain ⟨free, outDir⟩ := (toList_append_cons_iff ..).mp adds.outDir
      obtain ⟨filled, others⟩ := List.forall_mem_cons.mp adds.outDirNonempty
      exact ⟨_, ⟨filled, free, rfl⟩, { adds with outDir, outDirNonempty := others }⟩
    · rintro ⟨_, ⟨filled, free, rfl⟩, adds⟩
      exact { adds with
        outDir := (toList_append_cons_iff ..).mpr ⟨free, adds.outDir⟩
        outDirNonempty := List.forall_mem_cons.mpr ⟨filled, adds.outDirNonempty⟩ }
  | backend =>
    -- A name counts as the backend it stands for, so it must stand for one.
    have counted : ∀ {backend : Backend}, Backend.ofName? value = some backend →
        (value :: valuesIn .backend items).filterMap Backend.ofName? =
          backend :: (valuesIn .backend items).filterMap Backend.ofName? :=
      fun named => List.filterMap_cons_some named
    constructor
    · intro adds
      obtain ⟨⟨backend, named⟩, others⟩ := List.forall_mem_cons.mp adds.backendNamed
      obtain ⟨free, backend⟩ := (toList_append_cons_iff ..).mp (counted named ▸ adds.backend)
      exact ⟨_, ⟨_, named, free, rfl⟩, { adds with backend, backendNamed := others }⟩
    · rintro ⟨_, ⟨backend, named, free, rfl⟩, adds⟩
      exact { adds with
        backend := counted named ▸ (toList_append_cons_iff ..).mpr ⟨free, adds.backend⟩
        backendNamed := List.forall_mem_cons.mpr ⟨⟨backend, named⟩, adds.backendNamed⟩ }
  | eval =>
    constructor
    · intro adds
      exact ⟨_, rfl, { adds with evals := (List.append_cons ..).symm.trans adds.evals }⟩
    · rintro ⟨_, rfl, adds⟩
      exact { adds with evals := (List.append_cons ..).trans adds.evals }
  | inputPort =>
    constructor
    · intro adds
      obtain ⟨free, inputPort⟩ := (toList_append_cons_iff ..).mp adds.inputPort
      exact ⟨_, ⟨free, rfl⟩, { adds with inputPort }⟩
    · rintro ⟨_, ⟨free, rfl⟩, adds⟩
      exact { adds with inputPort := (toList_append_cons_iff ..).mpr ⟨free, adds.inputPort⟩ }
  | outputPort =>
    constructor
    · intro adds
      obtain ⟨free, outputPort⟩ := (toList_append_cons_iff ..).mp adds.outputPort
      exact ⟨_, ⟨free, rfl⟩, { adds with outputPort }⟩
    · rintro ⟨_, ⟨free, rfl⟩, adds⟩
      exact { adds with outputPort := (toList_append_cons_iff ..).mpr ⟨free, adds.outputPort⟩ }

/-- The first item is taken, then the others. -/
theorem adds_cons_iff (item : Item) :
    Adds given (item :: items) result ↔ ∃ next, Takes given next item ∧ Adds next items result := by
  cases item with
  | path path => exact adds_path_iff path
  | switch switch => exact adds_switch_iff switch
  | setting setting value => exact adds_setting_iff setting value

end Adding

/-- Items that are taken one after the other add what they say. -/
theorem foldlM_take_eq_ok_iff (given result : Arguments) (items : List Item) :
    items.foldlM take given = .ok result ↔ Adds given items result := by
  induction items generalizing given with
  | nil =>
    rw [adds_nil_iff]
    exact ⟨Except.ok.inj, congrArg Except.ok⟩
  | cons item items ih =>
    rw [adds_cons_iff, List.foldlM_cons]
    simp only [← take_eq_ok_iff, ← ih]
    cases given.take item with
    | error stop =>
      constructor
      · intro later
        cases later
      · rintro ⟨_, ⟨⟩, _⟩
    | ok next =>
      constructor
      · intro later
        exact ⟨next, rfl, later⟩
      · rintro ⟨_, ⟨⟩, later⟩
        exact later

theorem foldCase_name_eq_iff (name : String) (backend : Backend) :
    Backend.foldCase backend.name = Backend.foldCase name ↔ NamesBackend name backend := by
  cases backend with
  | native => exact eq_comm
  | espresso => exact eq_comm

theorem ofName?_eq_some_iff (name : String) (backend : Backend) :
    Backend.ofName? name = some backend ↔ NamesBackend name backend := by
  rw [← foldCase_name_eq_iff]
  constructor
  · intro found
    simpa using List.find?_some found
  · intro same
    rw [Backend.ofName?, ← same]
    cases backend <;> decide

theorem chosen_toList_iff (given : Option String) (otherwise value : String) :
    Chosen given.toList otherwise value ↔ value = given.getD otherwise := by
  cases given <;> simp [Chosen, eq_comm]

theorem Chosen.toList_head? {given : List String} {otherwise value : String}
    (chosen : Chosen given otherwise value) : given.head?.toList = given := by
  rcases chosen with ⟨rfl, _⟩ | rfl <;> rfl

theorem Chosen.getD_head? {given : List String} {otherwise value : String}
    (chosen : Chosen given otherwise value) : given.head?.getD otherwise = value := by
  rcases chosen with ⟨rfl, same⟩ | rfl
  · exact same.symm
  · rfl

theorem map_some_ofName? {names : List String}
    (named : ∀ name ∈ names, ∃ backend, Backend.ofName? name = some backend) :
    names.map Backend.ofName? = (names.filterMap Backend.ofName?).map some := by
  induction names with
  | nil => rfl
  | cons name rest ih =>
    obtain ⟨⟨backend, first⟩, others⟩ := List.forall_mem_cons.mp named
    rw [List.filterMap_cons_some first, List.map_cons, List.map_cons, ih others, first]

/-- Names that stand for one backend at most are no name, or one name of it. -/
theorem backend_of_names {names : List String} {backend? : Option Backend}
    (named : ∀ name ∈ names, ∃ backend, Backend.ofName? name = some backend)
    (gathered : names.filterMap Backend.ofName? = backend?.toList) :
    names = [] ∧ backend?.getD .native = .native ∨
      ∃ name, names = [name] ∧ NamesBackend name (backend?.getD .native) := by
  have known := map_some_ofName? named
  rw [gathered] at known
  cases backend? with
  | none => exact .inl ⟨List.map_eq_nil_iff.mp known, rfl⟩
  | some backend =>
    obtain ⟨name, rfl, first⟩ := List.map_eq_singleton_iff.mp known
    exact .inr ⟨name, rfl, (ofName?_eq_some_iff ..).mp first⟩

/-- The request of what was gathered is the one that the items make. -/
theorem Adds.makes {items : List Item} {given : Arguments} (adds : Adds {} items given)
    {request : Request} (made : given.request? = some request) : Makes items request := by
  obtain ⟨path, table, ⟨⟩⟩ := Option.bind_eq_some_iff.mp made
  have paths : pathsIn items = [path] := adds.table.trans (by rw [table]; rfl)
  have outDir : valuesIn .outDir items = given.outDir.toList := adds.outDir
  have inputPort : valuesIn .inputPort items = given.inputPort.toList := adds.inputPort
  have outputPort : valuesIn .outputPort items = given.outputPort.toList := adds.outputPort
  have evals : valuesIn .eval items = given.evals := adds.evals
  have turned : ∀ switch, switch ∈ given.switches ↔ switch ∈ switchesIn items := fun switch => by
    simp [← adds.switches]
  refine {
    table := paths
    tableNonempty := adds.tableNonempty path (by simp [paths])
    switchesOnce := adds.switchesOnce
    tablePath := rfl
    outDir := outDir ▸ (chosen_toList_iff ..).mpr rfl
    outDirNonempty := ?_
    backend := backend_of_names adds.backendNamed adds.backend
    inputPort := inputPort ▸ (chosen_toList_iff ..).mpr rfl
    outputPort := outputPort ▸ (chosen_toList_iff ..).mpr rfl
    packageSuffix := rfl
    indent := rfl
    header := by simp [turned]
    strict := by simp [turned]
    checkOnly := by simp [turned, evals]
    evals := evals.symm
    verbose := by simp [turned] }
  cases chosen : given.outDir with
  | none => exact (by decide : "." ≠ "")
  | some path => exact adds.outDirNonempty path (by simp [outDir, chosen])

/-- What items give, the first one of each where one may be given. -/
def gathered (items : List Item) : Arguments where
  table := (pathsIn items).head?
  outDir := (valuesIn .outDir items).head?
  backend := (valuesIn .backend items).head?.bind Backend.ofName?
  evals := valuesIn .eval items
  inputPort := (valuesIn .inputPort items).head?
  outputPort := (valuesIn .outputPort items).head?
  switches := (switchesIn items).reverse

/-- Items that make a request can be taken one after the other. -/
theorem Makes.adds {items : List Item} {request : Request} (makes : Makes items request) :
    Adds {} items (gathered items) := by
  refine {
    table := by simp [gathered, makes.table]
    tableNonempty := by simpa [makes.table] using makes.tableNonempty
    outDir := makes.outDir.toList_head?.symm
    outDirNonempty := ?_
    backend := ?_
    backendNamed := ?_
    evals := rfl
    inputPort := makes.inputPort.toList_head?.symm
    outputPort := makes.outputPort.toList_head?.symm
    switches := List.append_nil _
    switchesOnce := makes.switchesOnce
    switchesNew := fun _ _ => List.not_mem_nil }
  · rcases makes.outDir with ⟨none, _⟩ | one
    · simp [none]
    · simpa [one] using makes.outDirNonempty
  · rcases makes.backend with ⟨none, _⟩ | ⟨name, one, named⟩
    · simp [gathered, none]
    · simp [gathered, one, (ofName?_eq_some_iff ..).mpr named]
  · rcases makes.backend with ⟨none, _⟩ | ⟨name, one, named⟩
    · simp [none]
    · simpa [one] using ⟨_, (ofName?_eq_some_iff ..).mpr named⟩

/-- A request that items make is the request of what they give. -/
theorem Makes.request?_gathered {items : List Item} {request : Request}
    (makes : Makes items request) : (gathered items).request? = some request := by
  have table : (gathered items).table = some request.table := by simp [gathered, makes.table]
  have backend : (gathered items).backend.getD .native = request.config.backend := by
    rcases makes.backend with ⟨none, native⟩ | ⟨name, one, named⟩
    · simp [gathered, none, native]
    · simp [gathered, one, (ofName?_eq_some_iff ..).mpr named]
  have turned : ∀ switch, switch ∈ (gathered items).switches ↔ switch ∈ switchesIn items :=
    fun switch => List.mem_reverse
  rcases request with ⟨path, ⟨tablePath, outDir, _, style, strict, checkOnly⟩, evals, verbose⟩
  rcases style with ⟨inputPort, outputPort, packageSuffix, header, indent⟩
  refine Option.bind_eq_some_iff.mpr ⟨path, table, congrArg some ?_⟩
  rw [Request.mk.injEq, Config.mk.injEq, Style.mk.injEq]
  refine ⟨rfl, ⟨makes.tablePath.symm, makes.outDir.getD_head?, backend,
    ⟨makes.inputPort.getD_head?, makes.outputPort.getD_head?, makes.packageSuffix.symm, ?_,
      makes.indent.symm⟩, ?_, ?_⟩, makes.evals.symm, ?_⟩
  · exact Bool.eq_iff_iff.mpr (by simpa [turned] using makes.header.symm)
  · exact Bool.eq_iff_iff.mpr (by simpa [turned] using makes.strict.symm)
  · exact Bool.eq_iff_iff.mpr (by simpa [turned, gathered] using makes.checkOnly.symm)
  · exact Bool.eq_iff_iff.mpr (by simpa [turned] using makes.verbose.symm)

/-- Reading succeeds exactly on the command lines that make a request, and returns it. -/
theorem parse_eq_ok_iff (arguments : List String) (request : Request) :
    parse arguments = .ok request ↔ ∃ items, Spells arguments items ∧ Makes items request := by
  constructor
  · intro parsed
    unfold parse at parsed
    split at parsed
    · cases parsed
    · next given read =>
      split at parsed
      · cases parsed
      · next made =>
        cases parsed
        obtain ⟨items, spelled⟩ := exists_spells read
        rw [spelled.addAll, foldlM_take_eq_ok_iff] at read
        exact ⟨items, spelled, read.makes made⟩
  · rintro ⟨items, spelled, makes⟩
    have read := (foldlM_take_eq_ok_iff ..).mpr makes.adds
    rw [← spelled.addAll] at read
    simp only [parse, read, makes.request?_gathered]

end DecoderGen.CommandLine
