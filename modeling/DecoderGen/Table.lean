import DecoderGen.Identifier

/-! # Decode tables

A decode table names a hardware module, gives the width of its input and the one-bit fields of its
output, and lists rules in order of priority. Each rule has a written pattern and the names of the
output fields it asserts.

A `Draft` holds such values unchecked. A `Table` is a draft that is well formed: its names can stand
in generated code, its width is positive, its fields are distinct, and every rule has a name and a
pattern as wide as the input. Symbols of patterns and names of asserted fields are not yet looked at.
-/

namespace DecoderGen

/-- The output of a decoder: a packed structure whose first field is the most significant bit. -/
structure Schema where
  typeName : String
  fields : List String
deriving DecidableEq, Repr

/-- The position of a field in the output structure. -/
def Schema.fieldIndex? (schema : Schema) (name : String) : Option Nat :=
  schema.fields.findIdx? (· == name)

/-- One row of a decode table. The name serves messages and comments only. -/
structure Rule where
  name : String
  pattern : String
  asserted : List String
  enabled : Bool := true
deriving DecidableEq, Repr

/-- The values of a decode table before any check. -/
structure Draft where
  moduleName : String
  width : Int
  output : Schema
  rules : List Rule
deriving DecidableEq, Repr

/-- The first reason for which a draft is no table. -/
inductive TableFault where
  | badName (fault : NameFault)
  | nonPositiveWidth (width : Int)
  | noFields
  | duplicateField (name : String)
  | patternWidth (rule : String) (expected actual : Nat)
deriving DecidableEq, Repr

/-- The wording of a table fault. -/
def TableFault.message : TableFault → String
  | .badName fault => fault.message
  | .nonPositiveWidth width => s!"input width must be positive, got {width}"
  | .noFields => "output must declare at least one field"
  | .duplicateField name => s!"duplicate output field `{name}`"
  | .patternWidth rule expected actual =>
    s!"rule `{rule}`: pattern has {actual} symbols, expected {expected}"

namespace Draft

/-- What a draft has to satisfy to be a table. -/
structure WellFormed (draft : Draft) : Prop where
  moduleName : isIdentifier draft.moduleName = true
  width : 0 < draft.width
  typeName : isIdentifier draft.output.typeName = true
  fields_ne_nil : draft.output.fields ≠ []
  fields : ∀ field ∈ draft.output.fields, isIdentifier field = true
  fields_nodup : draft.output.fields.Nodup
  ruleNames : ∀ rule ∈ draft.rules, rule.name ≠ ""
  patterns : ∀ rule ∈ draft.rules, rule.pattern.length = draft.width.toNat

/-- The fault of a name that has to be an identifier, as a table fault. -/
def nameFault? (role : NameRole) (name : String) : Option TableFault :=
  (identifierFault? role name).map .badName

/-- The first field that is no identifier or repeats one of those before it. -/
def fieldFault? (earlier : List String) : List String → Option TableFault
  | [] => none
  | field :: rest =>
    nameFault? .outputField field <|>
    (if field ∈ earlier then some (.duplicateField field) else none) <|>
    fieldFault? (field :: earlier) rest

/-- The fault of one rule of a table with the given input width. -/
def ruleFault? (width : Nat) (rule : Rule) : Option TableFault :=
  if rule.name = "" then some (.badName (.empty .rule))
  else if rule.pattern.length ≠ width then
    some (.patternWidth rule.name width rule.pattern.length)
  else none

/-- The first fault of a draft, in the order module name, width, type name, fields, rules. -/
def fault? (draft : Draft) : Option TableFault :=
  nameFault? .module draft.moduleName <|>
  (if draft.width ≤ 0 then some (.nonPositiveWidth draft.width) else none) <|>
  nameFault? .outputType draft.output.typeName <|>
  (if draft.output.fields = [] then some .noFields else none) <|>
  fieldFault? [] draft.output.fields <|>
  draft.rules.findSome? (ruleFault? draft.width.toNat)

@[simp] theorem nameFault?_eq_none_iff (role : NameRole) (name : String) :
    nameFault? role name = none ↔ isIdentifier name = true := by
  simp [nameFault?, identifierFault?_eq_none_iff]

/-- A list of fields has no fault when its names are identifiers, distinct from one another and
from all earlier ones. -/
theorem fieldFault?_eq_none_iff (earlier fields : List String) :
    fieldFault? earlier fields = none ↔
      (∀ field ∈ fields, isIdentifier field = true) ∧ fields.Nodup ∧
        ∀ field ∈ fields, field ∉ earlier := by
  induction fields generalizing earlier with
  | nil => simp [fieldFault?]
  | cons field rest ih =>
    simp only [fieldFault?, Option.orElse_eq_orElse, Option.orElse_eq_or,
      Option.or_eq_none_iff,
      nameFault?_eq_none_iff, ite_eq_right_iff, reduceCtorEq, imp_false, ih, List.mem_cons,
      List.nodup_cons, forall_eq_or_imp, not_or]
    constructor
    · rintro ⟨legal, fresh, rests, distinct, apart⟩
      exact ⟨⟨legal, rests⟩, ⟨fun again => (apart field again).1 rfl, distinct⟩, fresh,
        fun other member => (apart other member).2⟩
    · rintro ⟨⟨legal, rests⟩, ⟨absent, distinct⟩, fresh, apart⟩
      exact ⟨legal, fresh, rests, distinct,
        fun other member => ⟨fun same => absent (same ▸ member), apart other member⟩⟩

@[simp] theorem ruleFault?_eq_none_iff (width : Nat) (rule : Rule) :
    ruleFault? width rule = none ↔ rule.name ≠ "" ∧ rule.pattern.length = width := by
  unfold ruleFault?
  split
  · next unnamed => simp [unnamed]
  · split <;> simp_all

/-- The scan for faults finds none exactly on the well-formed drafts. -/
theorem fault?_eq_none_iff (draft : Draft) : draft.fault? = none ↔ draft.WellFormed := by
  simp only [fault?, Option.orElse_eq_orElse, Option.orElse_eq_or, Option.or_eq_none_iff, nameFault?_eq_none_iff,
    ite_eq_right_iff, reduceCtorEq, imp_false, Int.not_le, fieldFault?_eq_none_iff,
    List.findSome?_eq_none_iff, ruleFault?_eq_none_iff]
  constructor
  · rintro ⟨moduleName, width, typeName, nonempty, ⟨fields, distinct, _⟩, rules⟩
    exact ⟨moduleName, width, typeName, nonempty, fields, distinct,
      fun rule member => (rules rule member).1, fun rule member => (rules rule member).2⟩
  · intro valid
    exact ⟨valid.moduleName, valid.width, valid.typeName, valid.fields_ne_nil,
      ⟨valid.fields, valid.fields_nodup, by simp⟩,
      fun rule member => ⟨valid.ruleNames rule member, valid.patterns rule member⟩⟩

end Draft

/-- A well-formed decode table. -/
structure Table extends Draft where
  wellFormed : toDraft.WellFormed

namespace Table

/-- Accept a draft as a table, or report its first fault. -/
def ofDraft (draft : Draft) : Except TableFault Table :=
  match found : draft.fault? with
  | some fault => .error fault
  | none => .ok ⟨draft, draft.fault?_eq_none_iff.mp found⟩

theorem ofDraft_eq_error_iff (draft : Draft) (fault : TableFault) :
    ofDraft draft = .error fault ↔ draft.fault? = some fault := by
  unfold ofDraft
  split
  · next found => rw [found, Except.error.injEq, Option.some.injEq]
  · next clean => simp [clean]

/-- The number of input bits of the decoder. -/
def inputWidth (table : Table) : Nat := table.width.toNat

theorem inputWidth_pos (table : Table) : 0 < table.inputWidth := by
  have positive := table.wellFormed.width
  unfold inputWidth
  omega

end Table
end DecoderGen
