import DecoderGen.CommandLine.Arguments
import Mathlib.Data.List.TakeWhile

/-! # What arguments say

What a command line says is stated apart from reading it. An argument says some items, which are
paths, switches and settings with their values, and may leave the value of a setting to the argument
behind it. Reading takes the items one after the other: a command line that says them is read as
they are taken, and whatever is read without a fault says some.
-/

namespace DecoderGen.CommandLine

/-- One thing that arguments say. -/
inductive Item where
  | path (path : String)
  | switch (switch : Switch)
  | setting (setting : Setting) (value : String)
deriving DecidableEq, Repr

/-- The name of an option behind two dashes. -/
def Choice.longName : Choice → String
  | .setting .outDir => "out-dir"
  | .setting .backend => "backend"
  | .setting .eval => "eval"
  | .setting .inputPort => "input-port"
  | .setting .outputPort => "output-port"
  | .switch .check => "check"
  | .switch .strict => "strict"
  | .switch .noHeader => "no-header"
  | .switch .verbose => "verbose"
  | .notice .help => "help"
  | .notice .version => "version"

/-- The name of an option behind one dash, if it has one. -/
def Choice.shortName? : Choice → Option Char
  | .setting .outDir => some 'o'
  | .setting .backend => some 'b'
  | .switch .verbose => some 'v'
  | .notice .help => some 'h'
  | .notice .version => some 'V'
  | _ => none

/-- An argument that is no option: it starts with no dash, or is a dash alone. -/
def IsValue (argument : String) : Prop := argument = "-" ∨ argument.toList.head? ≠ some '-'

/-- What joined short names say, and the setting whose value they leave to the next argument. -/
inductive MeansShort : List Char → List Item → Option Setting → Prop
  | done : MeansShort [] [] none
  | switch {symbol : Char} {switch : Switch} {rest : List Char} {items : List Item}
      {pending : Option Setting} (named : (Choice.switch switch).shortName? = some symbol)
      (later : MeansShort rest items pending) :
      MeansShort (symbol :: rest) (.switch switch :: items) pending
  | apart {symbol : Char} {setting : Setting}
      (named : (Choice.setting setting).shortName? = some symbol) :
      MeansShort [symbol] [] (some setting)
  | equals {symbol : Char} {setting : Setting} {value : List Char}
      (named : (Choice.setting setting).shortName? = some symbol) :
      MeansShort (symbol :: '=' :: value) [.setting setting (String.ofList value)] none
  | attached {symbol first : Char} {setting : Setting} {value : List Char}
      (named : (Choice.setting setting).shortName? = some symbol) (direct : first ≠ '=') :
      MeansShort (symbol :: first :: value) [.setting setting (String.ofList (first :: value))] none

/-- What an argument says, and the setting whose value it leaves to the next argument. -/
inductive Means : String → List Item → Option Setting → Prop
  | path {path : String} (plain : IsValue path) : Means path [.path path] none
  | switch (switch : Switch) : Means ("--" ++ (Choice.switch switch).longName) [.switch switch] none
  | apart (setting : Setting) : Means ("--" ++ (Choice.setting setting).longName) [] (some setting)
  | equals (setting : Setting) (value : String) :
      Means ("--" ++ (Choice.setting setting).longName ++ "=" ++ value) [.setting setting value]
        none
  | short {symbol : Char} {rest : List Char} {items : List Item} {pending : Option Setting}
      (meaning : MeansShort (symbol :: rest) items pending) :
      Means (String.ofList ('-' :: symbol :: rest)) items pending

/-- What a command line says, from left to right. -/
inductive Spells : List String → List Item → Prop
  | done : Spells [] []
  | paths (paths : List String) : Spells ("--" :: paths) (paths.map .path)
  | closed {argument : String} {arguments : List String} {items more : List Item}
      (meaning : Means argument items none) (later : Spells arguments more) :
      Spells (argument :: arguments) (items ++ more)
  | apart {argument value : String} {arguments : List String} {items more : List Item}
      {setting : Setting} (meaning : Means argument items (some setting)) (plain : IsValue value)
      (later : Spells arguments more) :
      Spells (argument :: value :: arguments) (items ++ .setting setting value :: more)

theorem Choice.ofLong?_eq_some_iff (name : String) (choice : Choice) :
    ofLong? name = some choice ↔ name = choice.longName := by
  constructor
  · intro known
    unfold ofLong? at known
    split at known <;> cases known <;> rfl
  · rintro rfl
    rcases choice with switch | setting | notice
    · cases switch <;> rfl
    · cases setting <;> rfl
    · cases notice <;> rfl

theorem Choice.ofShort?_eq_some_iff (symbol : Char) (choice : Choice) :
    ofShort? symbol = some choice ↔ choice.shortName? = some symbol := by
  constructor
  · intro known
    unfold ofShort? at known
    split at known <;> cases known <;> rfl
  · intro named
    unfold shortName? at named
    split at named <;> cases named <;> rfl

theorem Choice.not_mem_longName (choice : Choice) : '=' ∉ choice.longName.toList := by
  rcases choice with switch | setting | notice
  · cases switch <;> decide
  · cases setting <;> decide
  · cases notice <;> decide

theorem isValue_iff (argument : String) :
    IsValue argument ↔ Arguments.isOption argument = false := by
  rw [IsValue, ← String.toList_inj, Arguments.isOption]
  split
  · next symbol rest split => simp [split]
  · next single =>
    refine iff_of_true ?_ rfl
    rcases characters : argument.toList with _ | ⟨first, _ | ⟨second, rest⟩⟩
    · simp
    · by_cases dash : first = '-' <;> simp [dash]
    · exact .inr fun dash => single second rest (by simp_all)

namespace Arguments

/-- A text is split behind a name without an equals sign. -/
theorem splitLong_append {name : List Char} (plain : '=' ∉ name) (value? : Option (List Char)) :
    splitLong (name ++ value?.elim [] ('=' :: ·)) = (name, value?) := by
  have before : ∀ symbol ∈ name, (decide (symbol ≠ '=')) = true := fun symbol member =>
    decide_eq_true fun same => plain (same ▸ member)
  rw [splitLong, List.dropWhile_append_of_pos before, List.takeWhile_append_of_pos before]
  cases value? <;> simp

/-- What is split at an equals sign can be put together again. -/
theorem eq_of_splitLong {text name : List Char} {value? : Option (List Char)}
    (splits : splitLong text = (name, value?)) :
    text = name ++ value?.elim [] ('=' :: ·) := by
  unfold splitLong at splits
  split at splits
  · cases splits
    simp
  · next first value rest =>
    cases splits
    have sign := List.head?_dropWhile_not (· ≠ '=') text
    rw [rest] at sign
    obtain rfl : first = '=' := by simpa using sign
    simp [← rest]

/-- Take one item. -/
def take (given : Arguments) : Item → Except Stop Arguments
  | .path path => given.addTable path
  | .switch switch => given.turnOn switch
  | .setting setting value => given.set value setting

end Arguments

open Arguments

/-- Joined short names are read as what they say. -/
theorem MeansShort.addShort {symbols : List Char} {items : List Item} {pending : Option Setting}
    (meaning : MeansShort symbols items pending) (given : Arguments) :
    given.addShort symbols = (·, pending) <$> items.foldlM take given := by
  induction meaning generalizing given with
  | done => rfl
  | @switch symbol switch rest items pending named _ ih =>
    rw [Arguments.addShort, (Choice.ofShort?_eq_some_iff ..).mpr named, List.foldlM_cons, take]
    dsimp only
    cases given.turnOn switch with
    | error stop => rfl
    | ok next => exact ih next
  | apart named =>
    rw [Arguments.addShort, (Choice.ofShort?_eq_some_iff ..).mpr named]
    rfl
  | equals named =>
    rw [Arguments.addShort, (Choice.ofShort?_eq_some_iff ..).mpr named]
    simp [take]
  | @attached symbol first setting value named direct =>
    rw [Arguments.addShort, (Choice.ofShort?_eq_some_iff ..).mpr named]
    dsimp only
    split
    · contradiction
    · next sign => cases sign; exact absurd rfl direct
    · simp only [List.foldlM_cons, List.foldlM_nil, bind_pure, take, map_eq_pure_bind]

theorem MeansShort.ne_dash {symbol : Char} {rest : List Char} {items : List Item}
    {pending : Option Setting} (meaning : MeansShort (symbol :: rest) items pending) :
    symbol ≠ '-' := by
  have unnamed : ∀ choice : Choice, choice.shortName? ≠ some '-' := fun choice named => by
    cases (Choice.ofShort?_eq_some_iff '-' choice).mpr named
  rintro rfl
  cases meaning with
  | switch named => exact unnamed _ named
  | apart named => exact unnamed _ named
  | equals named => exact unnamed _ named
  | attached named => exact unnamed _ named

theorem add_of_isValue {argument : String} (plain : IsValue argument) (given : Arguments) :
    given.add argument = (·, none) <$> given.addTable argument := by
  have single := (isValue_iff argument).mp plain
  unfold isOption at single
  unfold Arguments.add
  split at single
  · cases single
  · next noOption =>
    split
    · next text split => exact absurd split (noOption _ _)
    · next symbol rest split => exact absurd split (noOption _ _)
    · simp only [map_eq_pure_bind]

theorem add_of_long {argument : String} (choice : Choice) (value? : Option (List Char))
    (characters : argument.toList =
      '-' :: '-' :: (choice.longName.toList ++ value?.elim [] ('=' :: ·)))
    (given : Arguments) : given.add argument = given.addLong choice.longName.toList value? := by
  rw [Arguments.add, characters]
  simp only [splitLong_append choice.not_mem_longName]

/-- An argument is read as what it says. -/
theorem Means.add {argument : String} {items : List Item} {pending : Option Setting}
    (meaning : Means argument items pending) (given : Arguments) :
    given.add argument = (·, pending) <$> items.foldlM take given := by
  cases meaning with
  | path plain =>
    rw [add_of_isValue plain]
    simp [take]
  | switch switch =>
    have known := (Choice.ofLong?_eq_some_iff _ (.switch switch)).mpr rfl
    rw [add_of_long (.switch switch) none (by simp)]
    simp [addLong, known, take]
  | apart setting =>
    have known := (Choice.ofLong?_eq_some_iff _ (.setting setting)).mpr rfl
    rw [add_of_long (.setting setting) none (by simp)]
    simp only [addLong, String.ofList_toList, known]
    rfl
  | equals setting value =>
    have known := (Choice.ofLong?_eq_some_iff _ (.setting setting)).mpr rfl
    rw [add_of_long (.setting setting) (some value.toList) (by simp)]
    simp [addLong, known, take]
  | @short symbol rest _ _ meaning =>
    -- No short name is a dash, so joined short names are not taken for a long one.
    have noDash := meaning.ne_dash
    rw [← meaning.addShort, Arguments.add, String.toList_ofList]
    split
    · next split => simp_all
    · next split => cases split; rfl
    · next noShort => exact absurd rfl (noShort _ _)

theorem Means.ne_dashes {argument : String} {items : List Item} {pending : Option Setting}
    (meaning : Means argument items pending) : argument ≠ "--" := by
  have unnamed : ∀ choice : Choice, choice.longName ≠ "" := fun choice empty => by
    cases (Choice.ofLong?_eq_some_iff "" choice).mpr empty.symm
  intro dashes
  have characters := congrArg String.toList dashes
  cases meaning with
  | path plain =>
    rw [dashes, isValue_iff] at plain
    exact absurd plain (by decide)
  | switch switch => exact unnamed (.switch switch) (by simpa using characters)
  | apart setting => exact unnamed (.setting setting) (by simpa using characters)
  | equals setting value => simp at characters
  | @short symbol rest _ _ meaning =>
    obtain ⟨dash, _⟩ : symbol = '-' ∧ rest = [] := by simpa using characters
    exact meaning.ne_dash dash

theorem addTables_eq_foldlM (given : Arguments) (paths : List String) :
    given.addTables paths = (paths.map Item.path).foldlM take given := by
  induction paths generalizing given with
  | nil => rfl
  | cons path rest ih =>
    rw [addTables, List.map_cons, List.foldlM_cons, take]
    cases given.addTable path with
    | error stop => rfl
    | ok next => exact ih next

/-- A command line is read as what it says. -/
theorem Spells.addAll {arguments : List String} {items : List Item}
    (spelled : Spells arguments items) (given : Arguments) :
    given.addAll arguments = items.foldlM take given := by
  induction spelled generalizing given with
  | done => rfl
  | paths paths =>
    rw [Arguments.addAll, if_pos rfl]
    exact addTables_eq_foldlM given paths
  | @closed argument arguments items more meaning _ ih =>
    rw [Arguments.addAll, if_neg meaning.ne_dashes, meaning.add, List.foldlM_append]
    -- The first item that cannot be taken ends both sides alike.
    cases items.foldlM take given with
    | error stop => rfl
    | ok next => exact ih next
  | @apart argument value arguments items more setting meaning plain _ ih =>
    rw [Arguments.addAll, if_neg meaning.ne_dashes, meaning.add, List.foldlM_append]
    cases items.foldlM take given with
    | error stop => rfl
    | ok next =>
      change (if isOption value = true then _ else _) = next.set value setting >>= _
      rw [if_neg (by simp [(isValue_iff value).mp plain])]
      cases next.set value setting with
      | error stop => rfl
      | ok later => exact ih later

theorem eq_none_of_closed {outcome : Except Stop Arguments} {next : Arguments}
    {pending : Option Setting} (read : (do return (← outcome, none)) = Except.ok (next, pending)) :
    pending = none := by
  cases outcome with
  | error stop => cases read
  | ok given =>
    cases read
    rfl

/-- Short names that are read say something. -/
theorem exists_meansShort {symbols : List Char} {given next : Arguments} {pending : Option Setting}
    (read : given.addShort symbols = .ok (next, pending)) :
    ∃ items, MeansShort symbols items pending := by
  induction symbols generalizing given with
  | nil =>
    cases read
    exact ⟨_, .done⟩
  | cons symbol rest ih =>
    rw [Arguments.addShort] at read
    split at read
    · cases read
    · cases read
    · next switch known =>
      have named := (Choice.ofShort?_eq_some_iff symbol _).mp known
      split at read
      · cases read
      · obtain ⟨items, meaning⟩ := ih read
        exact ⟨_, .switch named meaning⟩
    · next setting known =>
      have named := (Choice.ofShort?_eq_some_iff symbol _).mp known
      split at read
      · cases read
        exact ⟨_, .apart named⟩
      · obtain rfl := eq_none_of_closed read
        exact ⟨_, .equals named⟩
      · next nonempty direct =>
        obtain rfl := eq_none_of_closed read
        cases rest with
        | nil => exact absurd rfl nonempty
        | cons first value =>
          exact ⟨_, .attached named fun sign => direct value (by rw [sign])⟩

/-- A long option that is read says something. -/
theorem exists_means_long {text : List Char} {given next : Arguments} {pending : Option Setting}
    (read : given.addLong (splitLong text).1 (splitLong text).2 = .ok (next, pending)) :
    ∃ items, Means (String.ofList ('-' :: '-' :: text)) items pending := by
  obtain ⟨⟨name, value?⟩, splits⟩ : ∃ parts, splitLong text = parts := ⟨_, rfl⟩
  have dashed : String.ofList ('-' :: '-' :: text) =
      "--" ++ String.ofList name ++ String.ofList (value?.elim [] ('=' :: ·)) := by
    rw [eq_of_splitLong splits]
    simp [← String.toList_inj]
  rw [dashed]
  rw [splits] at read
  unfold addLong at read
  split at read
  · next switch known none =>
    obtain rfl := eq_none_of_closed read
    subst none
    rw [(Choice.ofLong?_eq_some_iff ..).mp known]
    exact ⟨_, by simpa using Means.switch switch⟩
  · cases read
  · next setting known none =>
    cases read
    subst none
    rw [(Choice.ofLong?_eq_some_iff ..).mp known]
    exact ⟨_, by simpa using Means.apart setting⟩
  · next setting value known given =>
    obtain rfl := eq_none_of_closed read
    subst given
    rw [(Choice.ofLong?_eq_some_iff ..).mp known]
    have attached : String.ofList ('=' :: value) = "=" ++ String.ofList value := by simp
    exact ⟨_, by simpa [attached, ← String.append_assoc] using Means.equals setting _⟩
  · cases read

/-- An argument that is read says something. -/
theorem exists_means {argument : String} {given next : Arguments} {pending : Option Setting}
    (read : given.add argument = .ok (next, pending)) : ∃ items, Means argument items pending := by
  obtain ⟨characters, rfl⟩ : ∃ characters, argument = String.ofList characters :=
    ⟨_, String.ofList_toList.symm⟩
  unfold Arguments.add at read
  rw [String.toList_ofList] at read
  split at read
  · exact exists_means_long read
  · obtain ⟨items, meaning⟩ := exists_meansShort read
    exact ⟨items, .short meaning⟩
  · next noLong noShort =>
    obtain rfl := eq_none_of_closed read
    refine ⟨_, .path ((isValue_iff _).mpr ?_)⟩
    rw [isOption, String.toList_ofList]
    split
    · exact absurd rfl (noShort _ _)
    · rfl

/-- A command line that is read says something. -/
theorem exists_spells {arguments : List String} {given result : Arguments}
    (read : given.addAll arguments = .ok result) : ∃ items, Spells arguments items := by
  fun_induction Arguments.addAll given arguments with
  | case1 => exact ⟨_, .done⟩
  | case2 given rest => exact ⟨_, .paths rest⟩
  | case3 => cases read
  | case4 given argument rest dashes next added ih =>
    obtain ⟨items, meaning⟩ := exists_means added
    obtain ⟨more, later⟩ := ih read
    exact ⟨_, .closed meaning later⟩
  | case5 => cases read
  | case6 => cases read
  | case7 => cases read
  | case8 given argument dashes next setting added value rest option later taken ih =>
    obtain ⟨items, meaning⟩ := exists_means added
    obtain ⟨more, spelled⟩ := ih read
    have plain : IsValue value := (isValue_iff value).mpr (by simpa using option)
    exact ⟨_, .apart meaning plain spelled⟩

end DecoderGen.CommandLine
