import DecoderGen.Proofs.NativeGuards

/-! # What resolving a table reports

The faults of a rule are stated on the rule as it is written: the symbols of its pattern other than
`0`, `1` and `.`, each with its place among the characters, and the asserted names that the output
does not declare. A table is resolved exactly if no rule has a fault, and what is reported otherwise
are the faults of all rules. Where there are none, reading drops no symbol and no name, so each
resolved rule says what its row says.
-/

namespace DecoderGen

/-- The symbols that patterns are written with. -/
def patternSymbols : List Char := ['0', '1', '.']

/-- A rule has legal symbols and declared fields only, whether it is enabled or not. -/
structure Rule.Consistent (schema : Schema) (rule : Rule) : Prop where
  symbols : ∀ symbol ∈ rule.pattern.toList, symbol ∈ patternSymbols
  fields : ∀ name ∈ rule.asserted, name ∈ schema.fields

/-- The illegal symbols of a rule by position, then its undeclared names in source order. -/
def Rule.violations (schema : Schema) (rule : Rule) : List RuleFault :=
  (rule.pattern.toList.zipIdx.filter (·.1 ∉ patternSymbols)).map
      (fun found => .badSymbol rule.name ⟨found.2, found.1⟩) ++
    (rule.asserted.filter (· ∉ schema.fields)).map (.undefinedField rule.name)

/-- What a resolved rule keeps of the row at a position. -/
structure ResolvedRule.Keeps (schema : Schema) (resolved : ResolvedRule) (position : Nat)
    (row : Rule) : Prop where
  rule : resolved.rule = row
  position : resolved.position = position
  pattern : resolved.pattern.text = row.pattern
  /-- The fields name the asserted ones one by one, in source order and with repetitions. -/
  fields : List.Forall₂ (fun field name => schema.fields[field]? = some name) resolved.fields
    row.asserted

section Violations

theorem PatternBit.ofSymbol?_eq_none_iff (symbol : Char) :
    ofSymbol? symbol = none ↔ symbol ∉ patternSymbols := by
  unfold ofSymbol?
  split <;> simp_all [patternSymbols]

/-- The scan of a pattern selects the illegal symbols together with their positions. -/
theorem Pattern.badSymbols_eq (start : Nat) (symbols : List Char) :
    badSymbols start symbols =
      ((symbols.zipIdx start).filter (·.1 ∉ patternSymbols)).map fun found =>
        ⟨found.2, found.1⟩ := by
  induction symbols generalizing start with
  | nil => rfl
  | cons symbol rest ih =>
    rw [badSymbols, ih, List.zipIdx_cons]
    split
    · next bit read =>
      have legal : symbol ∈ patternSymbols := by
        by_contra illegal
        rw [(PatternBit.ofSymbol?_eq_none_iff symbol).mpr illegal] at read
        cases read
      simp [legal]
    · next unread =>
      have illegal := (PatternBit.ofSymbol?_eq_none_iff symbol).mp unread
      simp [illegal]

theorem Schema.fieldIndex?_isNone_iff (schema : Schema) (name : String) :
    (schema.fieldIndex? name).isNone = true ↔ name ∉ schema.fields := by
  rw [Option.isNone_iff_eq_none, fieldIndex?, List.findIdx?_eq_none_iff]
  constructor
  · intro unlike member
    simpa using unlike name member
  · rintro absent field member
    rw [beq_eq_false_iff_ne]
    rintro rfl
    exact absent member

theorem Rule.faults_eq_violations (schema : Schema) (rule : Rule) :
    rule.faults schema = rule.violations schema := by
  have undefined : (rule.asserted.filter fun field => (schema.fieldIndex? field).isNone) =
      rule.asserted.filter (· ∉ schema.fields) := by
    apply List.filter_congr
    intro name _
    rw [Bool.eq_iff_iff, schema.fieldIndex?_isNone_iff, decide_eq_true_iff]
  rw [faults, violations, undefined, Pattern.badSymbols_eq, List.map_map]
  rfl

theorem Rule.violations_eq_nil_iff (schema : Schema) (rule : Rule) :
    rule.violations schema = [] ↔ rule.Consistent schema := by
  rw [violations, List.append_eq_nil_iff, List.map_eq_nil_iff, List.map_eq_nil_iff,
    List.filter_eq_nil_iff, List.filter_eq_nil_iff]
  simp only [decide_eq_true_eq, not_not]
  constructor
  · rintro ⟨symbols, fields⟩
    refine ⟨fun symbol member => ?_, fields⟩
    obtain ⟨position, listed⟩ := List.mem_iff_getElem?.mp member
    exact symbols (symbol, position) (List.mem_zipIdx_iff_getElem?.mpr listed)
  · rintro ⟨symbols, fields⟩
    refine ⟨fun found member => symbols found.1 ?_, fields⟩
    exact List.mem_of_getElem? (List.mem_zipIdx_iff_getElem?.mp member)

end Violations

theorem Table.ruleFaults_eq_violations (table : Table) :
    table.ruleFaults = table.rules.flatMap (Rule.violations table.output) := by
  unfold Table.ruleFaults
  congr 1
  funext rule
  exact rule.faults_eq_violations table.output

/-- Locating declared names loses none of them. -/
theorem Schema.locates_declared (schema : Schema) {names : List String}
    (declared : ∀ name ∈ names, name ∈ schema.fields) :
    List.Forall₂ (fun field name => schema.fields[field]? = some name)
      (names.filterMap schema.fieldIndex?) names := by
  induction names with
  | nil => exact .nil
  | cons name rest ih =>
    obtain ⟨here, later⟩ := List.forall_mem_cons.mp declared
    cases found : schema.fieldIndex? name with
    | none =>
      exact absurd here ((schema.fieldIndex?_isNone_iff name).mp (by rw [found, Option.isNone_none]))
    | some field =>
      rw [List.filterMap_cons_some found]
      exact .cons (Schema.getElem?_of_fieldIndex? found) (ih later)

namespace Resolved

/-- The rules of a resolved table are its rows one by one. -/
theorem keeps_rules (resolved : Resolved) {position : Nat} {row : Rule}
    (listed : resolved.table.rules[position]? = some row) :
    ∃ rule, resolved.rules[position]? = some rule ∧
      rule.Keeps resolved.table.output position row := by
  have member := List.mem_of_getElem? listed
  refine ⟨row.resolve resolved.table.output position, ?_, rfl, rfl, ?_, ?_⟩
  · rw [rules, List.getElem?_mapIdx, listed]
    rfl
  · exact resolved.text_ofSymbols member
  · exact Schema.locates_declared _ fun name => resolved.mem_fields_of_asserted member

end Resolved

/-- A table is resolved exactly if all of its rules are consistent. Otherwise the report holds every
violation, in table order; and a table that is resolved has one resolved rule for each row, at the
same position, that keeps what the row says. -/
theorem Table.resolve_reports_violations (table : Table) :
    ((∃ resolved, table.resolve = .ok resolved) ↔
      ∀ rule ∈ table.rules, rule.Consistent table.output) ∧
    (∀ faults, table.resolve = .error faults →
      faults ≠ [] ∧ faults = table.rules.flatMap (Rule.violations table.output)) ∧
    ∀ resolved, table.resolve = .ok resolved →
      resolved.rules.length = table.rules.length ∧
      ∀ (position : Nat) (row : Rule), table.rules[position]? = some row →
        ∃ rule, resolved.rules[position]? = some rule ∧ rule.Keeps table.output position row := by
  have silent : table.ruleFaults = [] ↔ ∀ rule ∈ table.rules, rule.Consistent table.output := by
    simp only [table.ruleFaults_eq_violations, List.flatMap_eq_nil_iff, Rule.violations_eq_nil_iff]
  refine ⟨?_, ?_, ?_⟩
  · rw [← silent]
    constructor
    · rintro ⟨resolved, accepted⟩
      obtain rfl := (table.resolve_eq_ok_iff resolved).mp accepted
      exact resolved.noFaults
    · intro clean
      exact ⟨⟨table, clean⟩, (table.resolve_eq_ok_iff _).mpr rfl⟩
  · intro faults refused
    rw [← table.ruleFaults_eq_violations]
    unfold Table.resolve at refused
    split at refused
    · cases refused
    · next fault rest found =>
      obtain rfl := Except.error.inj refused
      exact ⟨List.cons_ne_nil fault rest, found.symm⟩
  · intro resolved accepted
    obtain rfl := (table.resolve_eq_ok_iff resolved).mp accepted
    refine ⟨by rw [Resolved.rules, List.length_mapIdx], fun position row listed => ?_⟩
    exact resolved.keeps_rules listed

/-- Rules with illegal symbols, one of them beyond ASCII, and with undeclared fields, one of them
named twice; the last rule is switched off. -/
def faultyDraft : Draft where
  moduleName := "dec"
  width := 4
  output := ⟨"ctrl_t", ["load", "store"]⟩
  rules :=
    [⟨"first", "0x..", ["load", "jump"], true⟩,
      ⟨"second", "11..", ["load"], true⟩,
      ⟨"third", "1é.z", ["halt", "halt"], false⟩]

/-- The faulty rules as a table. -/
def faulty : Table := ⟨faultyDraft, faultyDraft.fault?_eq_none_iff.mp (by decide +kernel)⟩

/-- All violations of the faulty rules are reported at once, while the layered rules are resolved
one by one. -/
theorem faulty_violations_reported :
    faulty.resolve = .error
      [.badSymbol "first" ⟨1, 'x'⟩, .undefinedField "first" "jump", .badSymbol "third" ⟨1, 'é'⟩,
        .badSymbol "third" ⟨3, 'z'⟩, .undefinedField "third" "halt",
        .undefinedField "third" "halt"] ∧
    layered.resolve = .ok layeredResolved ∧
    ∃ rule, layeredResolved.rules[2]? = some rule ∧
      rule.Keeps layered.output 2 ⟨"wide", "1.", ["store", "load"], true⟩ := by
  obtain ⟨acceptance, report, _⟩ := Table.resolve_reports_violations faulty
  have accepted : layered.resolve = .ok layeredResolved :=
    (layered.resolve_eq_ok_iff layeredResolved).mpr rfl
  have rows := ((Table.resolve_reports_violations layered).2.2 layeredResolved accepted).2
  refine ⟨?_, accepted, rows 2 _ rfl⟩
  cases outcome : faulty.resolve with
  | ok resolved =>
    have consistent := acceptance.mp ⟨resolved, outcome⟩ _ List.mem_cons_self
    exact absurd (consistent.symbols 'x' (by decide +kernel)) (by decide)
  | error faults =>
    rw [(report faults outcome).2]
    exact congrArg Except.error (by decide +kernel)

end DecoderGen
