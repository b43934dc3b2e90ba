import DecoderGen.CommandLine.Session
import DecoderGen.Proofs.GivenOptions
import DecoderGen.Proofs.Regeneration

/-! # What evaluating inputs prints

The line for an input is stated on the table as it is written: the digits of the text, the name of
the first enabled row that matches them, and a value for each field, set if that row names the
field. The texts and the settings of a call are those that its command line gives. A call that
evaluates inputs prints these lines up to the first text that is no input, fails exactly if there is
such a text, and never changes a file.
-/

namespace DecoderGen

/-- The first enabled row that matches an input, in table order. -/
def Table.decidingRow? (table : Table) (input : Input) : Option Rule :=
  table.rules.find? fun rule => rule.enabled = true ∧ rule.Matches input

/-- The search for a row ends at the one that decides. -/
theorem Table.decidingRow?_eq_some_iff (table : Table) (input : Input) (row : Rule) :
    table.decidingRow? input = some row ↔ ∃ position, table.Decides input position row := by
  rw [decidingRow?, List.find?_eq_some_iff_getElem]
  simp only [decide_eq_true_eq, Bool.not_eq_true', decide_eq_false_iff_not, not_and]
  constructor
  · rintro ⟨⟨enabled, agrees⟩, position, bound, rfl, before⟩
    refine ⟨position, List.getElem?_eq_getElem bound, enabled, agrees, ?_⟩
    intro earlier smaller other there active
    obtain ⟨_, rfl⟩ := List.getElem?_eq_some_iff.mp there
    exact before earlier smaller active
  · rintro ⟨position, decides⟩
    obtain ⟨bound, rfl⟩ := List.getElem?_eq_some_iff.mp decides.listed
    refine ⟨⟨decides.enabled, decides.agrees⟩, position, bound, rfl, fun earlier smaller => ?_⟩
    exact decides.first earlier smaller _ (List.getElem?_eq_getElem (Nat.lt_trans smaller bound))

namespace Resolved

variable (resolved : Resolved) (input : Input)

/-- The first guard that matches has the name of the first row that does. -/
theorem map_name_firstMatch? :
    (resolved.nativeLogic.firstMatch? input).map (·.name) =
      (resolved.table.decidingRow? input).map (·.name) := by
  apply Option.ext
  intro name
  simp only [Option.map_eq_some_iff, resolved.firstMatch?_eq_some_iff,
    Table.decidingRow?_eq_some_iff]
  constructor
  · rintro ⟨_, ⟨position, row, decides, rfl⟩, rfl⟩
    exact ⟨row, ⟨position, decides⟩, rfl⟩
  · rintro ⟨row, ⟨position, decides⟩, rfl⟩
    exact ⟨_, ⟨position, row, decides, rfl⟩, rfl⟩

/-- The values of all fields, read off the row that decides. -/
theorem evaluate_eq_map :
    resolved.nativeLogic.evaluate input = resolved.table.output.fields.map fun field =>
      (resolved.table.decidingRow? input).any fun row => field ∈ row.asserted := by
  apply eq_of_getElem?_eq_true_iff
  · rw [Logic.evaluate_length, List.length_map]
    rfl
  · intro place bound
    rw [Logic.evaluate_length] at bound
    have declared : resolved.table.output.fields[place]? = _ := List.getElem?_eq_getElem bound
    rw [resolved.evaluate_eq_true_iff_decides input declared, List.getElem?_map, declared,
      Option.map_some, Option.some.injEq, Option.any_eq_true]
    simp only [Table.decidingRow?_eq_some_iff, decide_eq_true_eq]
    constructor
    · rintro ⟨position, row, decides, asserted⟩
      exact ⟨row, ⟨position, decides⟩, asserted⟩
    · rintro ⟨row, ⟨position, decides⟩, asserted⟩
      exact ⟨position, row, decides, asserted⟩

end Resolved

namespace Input

theorem ofDigits?_eq_some_iff (symbols : List Char) (input : Input) :
    ofDigits? symbols = some input ↔ symbols = input.map digit := by
  refine ⟨fun read => ?_, fun written => written ▸ ofDigits?_map_digit input⟩
  induction symbols generalizing input with
  | nil =>
    obtain rfl := Option.some.inj read
    rfl
  | cons symbol rest ih =>
    simp only [ofDigits?, bind, pure, Option.bind_eq_some_iff, Option.some.injEq] at read
    obtain ⟨bit, first, later, others, rfl⟩ := read
    rw [List.map_cons, ← ih later others]
    unfold bit? at first
    split at first <;> cases first <;> rfl

end Input

namespace CommandLine

/-- The characters of a text that are no separators. -/
def digitsOf (text : String) : List Char := text.toList.filter (· ≠ '_')

/-- A text that is an input: binary digits and separators, and a digit for each input bit. -/
def IsInputText (width : Nat) (text : String) : Prop :=
  (∀ symbol ∈ text.toList, symbol ∈ ['0', '1', '_']) ∧ (digitsOf text).length = width

instance (width : Nat) (text : String) : Decidable (IsInputText width text) :=
  -- The characters of the text are looked at, not all characters there are.
  have : Decidable (∀ symbol ∈ text.toList, symbol ∈ ['0', '1', '_']) := List.decidableBAll _ _
  inferInstanceAs (Decidable (_ ∧ _))

/-- The line for a text, from the rows of the table: its digits, the row that decides it, and the
fields with their values. -/
def referenceLine (table : Table) (text : String) : String :=
  let row := table.decidingRow? ((digitsOf text).map (· == '1'))
  String.ofList (digitsOf text) ++ " [" ++ (row.map (·.name)).getD "<default>" ++ "] " ++
    String.intercalate " " (table.output.fields.map fun field =>
      field ++ "=" ++ if row.any (field ∈ ·.asserted) then "1" else "0")

theorem parse?_eq_some_iff (text : String) (input : Input) :
    Input.parse? text = some input ↔ digitsOf text = input.map Input.digit :=
  Input.ofDigits?_eq_some_iff (digitsOf text) input

theorem map_beq_map_digit (input : Input) : (input.map Input.digit).map (· == '1') = input := by
  rw [List.map_map]
  refine (List.map_congr_left fun bit _ => ?_).trans (List.map_id input)
  cases bit <;> rfl

/-- Texts with binary digits and separators only are those whose digits are the digits of bits. -/
theorem exists_digits_iff (text : String) :
    (∃ input : Input, digitsOf text = input.map Input.digit) ↔
      ∀ symbol ∈ text.toList, symbol ∈ ['0', '1', '_'] := by
  constructor
  · rintro ⟨input, digits⟩ symbol member
    by_cases separator : symbol = '_'
    · simp [separator]
    · have digit : symbol ∈ digitsOf text := List.mem_filter.mpr ⟨member, by simpa using separator⟩
      rw [digits] at digit
      obtain ⟨bit, _, rfl⟩ := List.mem_map.mp digit
      cases bit <;> decide
  · intro legal
    refine ⟨(digitsOf text).map (· == '1'), ?_⟩
    rw [List.map_map]
    refine ((List.map_congr_left fun symbol member => ?_).trans (List.map_id _)).symm
    obtain ⟨present, notSeparator⟩ := List.mem_filter.mp member
    have listed : symbol = '0' ∨ symbol = '1' ∨ symbol = '_' := by simpa using legal symbol present
    rcases listed with rfl | rfl | rfl
    · rfl
    · rfl
    · simp at notSeparator

/-- A text is read as an input exactly if it is one, and then as its digits. -/
theorem readInput_eq_ok_iff (width : Nat) (text : String) (input : Input) :
    readInput width text = .ok input ↔
      IsInputText width text ∧ input = (digitsOf text).map (· == '1') := by
  have read : readInput width text = .ok input ↔
      Input.parse? text = some input ∧ input.length = width := by
    unfold readInput
    cases Input.parse? text with
    | none => simp
    | some found =>
      simp only [Option.some.injEq]
      split
      · next fits =>
        rw [Except.ok.injEq]
        exact ⟨fun same => ⟨same, same ▸ fits⟩, And.left⟩
      · next misfit => exact iff_of_false nofun fun ⟨same, fits⟩ => misfit (same ▸ fits)
  rw [read, parse?_eq_some_iff, IsInputText, ← exists_digits_iff]
  constructor
  · rintro ⟨digits, fits⟩
    rw [digits, map_beq_map_digit, List.length_map]
    exact ⟨⟨⟨input, rfl⟩, fits⟩, rfl⟩
  · rintro ⟨⟨⟨bits, digits⟩, fits⟩, rfl⟩
    rw [digits, map_beq_map_digit]
    rw [digits, List.length_map] at fits
    exact ⟨rfl, fits⟩

/-- A text that is no input is refused. -/
theorem exists_readInput_eq_error {width : Nat} {text : String}
    (invalid : ¬ IsInputText width text) : ∃ fault, readInput width text = .error fault := by
  cases outcome : readInput width text with
  | error fault => exact ⟨fault, rfl⟩
  | ok input => exact absurd ((readInput_eq_ok_iff width text input).mp outcome).1 invalid

theorem describeInput_eq (fields : List String) (logic : Logic) (input : Input) :
    describeInput fields logic input =
      String.ofList (input.map Input.digit) ++ " [" ++
        ((logic.firstMatch? input).map (·.name)).getD "<default>" ++ "] " ++
        String.intercalate " " (List.zipWith fieldText fields (logic.evaluate input)) := by
  unfold describeInput
  cases logic.firstMatch? input <;> rfl

section Lines

variable (resolved : Resolved)

/-- The description of an input shows what the rows of the table say. -/
theorem describeInput_eq_referenceLine {text : String}
    (valid : IsInputText resolved.table.inputWidth text) :
    describeInput resolved.table.output.fields resolved.nativeLogic
        ((digitsOf text).map (· == '1')) = referenceLine resolved.table text := by
  obtain ⟨input, digits⟩ := (exists_digits_iff text).mpr valid.1
  have values : List.zipWith fieldText resolved.table.output.fields
        (resolved.nativeLogic.evaluate input) =
      resolved.table.output.fields.map fun field => field ++ "=" ++
        if (resolved.table.decidingRow? input).any (field ∈ ·.asserted) then "1" else "0" := by
    rw [resolved.evaluate_eq_map input, List.zipWith_map_right, List.zipWith_self]
    rfl
  rw [referenceLine, digits, map_beq_map_digit, describeInput_eq, values,
    resolved.map_name_firstMatch? input]

/-- There is a line for each text up to the first one that is no input, and a fault if there is such
a text. -/
theorem evaluateAll_eq (texts : List String) :
    let printed := evaluateAll resolved.table.output.fields resolved.nativeLogic texts
    printed.1 = (texts.takeWhile (IsInputText resolved.table.inputWidth ·)).map
        (referenceLine resolved.table) ∧
      (printed.2 = none ↔ ∀ text ∈ texts, IsInputText resolved.table.inputWidth text) := by
  induction texts with
  | nil => simp [evaluateAll]
  | cons text rest ih =>
    by_cases valid : IsInputText resolved.table.inputWidth text
    · have read : readInput resolved.nativeLogic.inputWidth text = .ok _ :=
        (readInput_eq_ok_iff _ text _).mpr ⟨valid, rfl⟩
      simp only [evaluateAll, read, ih.1, ih.2, List.forall_mem_cons, valid, true_and, and_true,
        decide_true, List.takeWhile_cons_of_pos, List.map_cons,
        describeInput_eq_referenceLine resolved valid]
    · obtain ⟨fault, refused⟩ := exists_readInput_eq_error valid
      have stopped : readInput resolved.nativeLogic.inputWidth text = .error fault := refused
      simp [evaluateAll, stopped, valid]

end Lines

/-- Evaluating with a table that is found and compiles prints its lines and changes no file. -/
theorem run_evaluate (workspace : Workspace) {request : Request} {table : Table}
    {compilation : Compilation} (held : workspace.tree.HoldsTable request.table table)
    (compiled : table.compile request.config = .ok compilation) :
    ∃ next : Workspace, next.tree = workspace.tree ∧
      (evaluate request : StateM Workspace Outcome).run workspace =
        (let printed := evaluateAll table.output.fields compilation.logic request.evals
         ({ lines := printed.1, error := printed.2.map EvalFault.message }, next)) := by
  obtain ⟨loaded, sameTree, loads⟩ := run_loadTable request.table workspace
  obtain ⟨next, stillSame, compiles⟩ := run_compileTable table request.config loaded
  rw [tableAt_eq_ok_iff.mpr held] at loads
  rw [compiled] at compiles
  refine ⟨next, stillSame.trans sameTree, ?_⟩
  simp only [evaluate, Writing.run_bind, loads, compiles, Except.mapError]
  rfl

/-- A call with inputs to evaluate reports the outcome of evaluating them. -/
theorem call_of_evaluate {arguments : List String} {setting : Option String} {tree : FileTree}
    {request : Request} {outcome : Outcome} {next : Workspace}
    (parsed : parse arguments = .ok request) (asked : request.evals ≠ [])
    (ran : (evaluate request : StateM Workspace Outcome).run { tree } = (outcome, next)) :
    call arguments setting tree =
      (⟨exitCode outcome, unlines outcome.lines,
        errorText (threshold setting request) next.events outcome.error⟩, next.tree) := by
  have executed : (execute request : StateM Workspace Outcome) { tree } = (outcome, next) := by
    rw [execute, if_neg (by simpa using asked)]
    exact ran
  simp only [call, parsed, executed]

/-- A call that evaluates inputs prints the lines of the longest run of inputs at the front, ends
with 0 exactly if all texts are inputs and otherwise with 1, and changes nothing in the tree. The
texts are those that the command line gives, and the table has to compile under the ports, the
backend and the strictness that the command line gives, whatever else it says. -/
theorem call_prints_reference (arguments : List String) (items : List Item) (request : Request)
    (setting : Option String) (tree : FileTree) (table : Table) (compilation : Compilation)
    (spelled : Spells arguments items) (makes : Makes items request)
    (asked : valuesIn .eval items ≠ []) (held : tree.HoldsTable request.table table)
    (compiled : table.compile request.config = .ok compilation) :
    let texts := valuesIn .eval items
    let report := (call arguments setting tree).1
    report.stdout = String.join ((texts.takeWhile (IsInputText table.inputWidth ·)).map
        fun text => referenceLine table text ++ "\n") ∧
      (report.exit = if ∀ text ∈ texts, IsInputText table.inputWidth text then 0 else 1) ∧
      (call arguments setting tree).2 = tree := by
  have parsed := (parse_eq_ok_iff arguments request).mpr ⟨items, spelled, makes⟩
  rw [← makes.evals] at asked ⊢
  obtain ⟨next, same, ran⟩ := run_evaluate { tree } held compiled
  obtain ⟨_, resolved, rfl, _, _, rfl⟩ := (table.compile_eq_ok_iff _ _).mp compiled
  obtain ⟨lines, faultless⟩ := evaluateAll_eq resolved request.evals
  -- The tree is left by loading and compiling, and evaluating touches no file.
  rw [call_of_evaluate parsed asked ran]
  refine ⟨?_, ?_, same⟩
  · change unlines (evaluateAll _ resolved.nativeLogic _).1 = _
    rw [lines, unlines, List.map_map]
    rfl
  · change (if (Option.map _ (evaluateAll _ resolved.nativeLogic _).2).isSome then 1 else 0) = _
    simp only [Option.isSome_map, ← faultless]
    cases (evaluateAll resolved.table.output.fields resolved.nativeLogic request.evals).2 <;> rfl

/-- Two input bits, two fields, and one row that takes half of the inputs. The type has the name
that the output port has unless another one is given. -/
def probeDraft : Draft where
  moduleName := "dec"
  width := 2
  output := ⟨"decode_o", ["a", "b"]⟩
  rules := [⟨"top", "1.", ["b"], true⟩]

/-- The row as a resolved table. -/
def probe : Resolved :=
  ⟨⟨probeDraft, probeDraft.fault?_eq_none_iff.mp (by decide +kernel)⟩, by decide +kernel⟩

/-- The document of the row, in which all records are lists. -/
def probeDocument : String :=
  "[\"dec\", 2, [\"decode_o\", [\"a\", \"b\"]], [[\"top\", \"1.\", [\"b\"]]]]"

/-- A file with the document of the row. -/
def probeTree : FileTree where
  entries := [(["t.json"], .file probeDocument.toUTF8)]

theorem probeTree_holdsTable : probeTree.HoldsTable "t.json" probe.table := by
  rw [← tableAt_eq_ok_iff]
  have known : (probeTree.tableAt "t.json").toOption.map (·.toDraft) = some probeDraft := by
    decide +kernel
  cases found : probeTree.tableAt "t.json" with
  | error fault =>
    rw [found] at known
    cases known
  | ok table =>
    rw [found] at known
    obtain ⟨draft, wellFormed⟩ := table
    obtain rfl : draft = probeDraft := Option.some.inj known
    rfl

/-- The arguments of a call that evaluates four texts, of which the third is no input. -/
def probeArguments : List String :=
  ["t.json", "--eval", "1_0", "--eval=01", "-vbNative", "--eval", "2", "--output-port=out_o",
    "--eval=11"]

/-- What these arguments say. -/
def probeItems : List Item :=
  [.path "t.json", .setting .eval "1_0", .setting .eval "01", .switch .verbose,
    .setting .backend "Native", .setting .eval "2", .setting .outputPort "out_o",
    .setting .eval "11"]

/-- The request they make. -/
def probeRequest : Request where
  table := "t.json"
  config := { tablePath := some "t.json", style := { outputPort := "out_o" }, checkOnly := true }
  evals := ["1_0", "01", "2", "11"]
  verbose := true

theorem probeArguments_spell : Spells probeArguments probeItems :=
  .closed (.path (.inr (by decide))) <|
  .apart (.apart .eval) (.inr (by decide)) <|
  .closed (.equals .eval "01") <|
  .closed (.short (.switch rfl (.attached rfl (by decide)))) <|
  .apart (.apart .eval) (.inr (by decide)) <|
  .closed (.equals .outputPort "out_o") <|
  .closed (.equals .eval "11") .done

theorem probeItems_make : Makes probeItems probeRequest where
  table := rfl
  tableNonempty := by decide
  switchesOnce := by decide
  tablePath := rfl
  outDir := .inl ⟨rfl, rfl⟩
  outDirNonempty := by decide
  backend := .inr ⟨"Native", rfl, by decide⟩
  inputPort := .inl ⟨rfl, rfl⟩
  outputPort := .inr rfl
  packageSuffix := rfl
  indent := rfl
  header := by decide
  strict := by decide
  checkOnly := by decide
  evals := rfl
  verbose := by decide

/-- Two lines are printed, although the fourth text is an input again. -/
theorem probe_prints_reference :
    (call probeArguments none probeTree).1.stdout =
        "10 [top] a=0 b=1\n01 [<default>] a=0 b=0\n" ∧
      (call probeArguments none probeTree).1.exit = 1 ∧
      (call probeArguments none probeTree).2 = probeTree := by
  have compiled : probe.table.compile probeRequest.config =
      .ok (probe.compilation { outputPort := "out_o" }) :=
    (Table.compile_eq_ok_iff _ _ _).mpr ⟨by decide +kernel, probe, rfl, nofun, rfl, rfl⟩
  obtain ⟨stdout, exit, tree⟩ := call_prints_reference probeArguments probeItems probeRequest none
    probeTree probe.table _ probeArguments_spell probeItems_make (by decide) probeTree_holdsTable
    compiled
  exact ⟨stdout.trans (by decide +kernel), exit.trans (by decide +kernel), tree⟩

end CommandLine
end DecoderGen
