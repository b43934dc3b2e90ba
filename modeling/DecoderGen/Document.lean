import DecoderGen.Decimal.Layout
import DecoderGen.Json.Parser
import DecoderGen.Table
import DecoderGen.Text.Quoted

/-! # Table documents

A decode table is written as a JSON record. Records may be objects, with their keys in any order and
each at most once, or arrays of the values in key order. The rule record has an optional last key.

A document is read in text order and the first problem is reported; keys that are missing count as a
problem at the end of their record.
-/

namespace DecoderGen

namespace Document

/-- The records of a table document. -/
inductive Record where
  | table
  | output
  | rule
deriving DecidableEq, Repr

/-- The keys of a record in their order. -/
def Record.keys : Record → List String
  | .table => ["module_name", "input", "output", "decodes"]
  | .output => ["type_name", "fields"]
  | .rule => ["instr", "match", "decodes", "enabled"]

/-- How many of the keys, counted from the first, have to be present. -/
def Record.required : Record → Nat
  | .table => 4
  | .output => 2
  | .rule => 3

/-- The words by which messages refer to a record. -/
def Record.title : Record → String
  | .table => "struct RawTable"
  | .output => "struct RawOutput"
  | .rule => "struct RawRule"

/-- The kinds of value a document asks for. -/
inductive Expected where
  | text
  | integer
  | flag
  | list
  | record (kind : Record)
deriving DecidableEq, Repr

/-- The words for the kind of value that a document asks for. -/
def Expected.description : Expected → String
  | .text => "a string"
  | .integer => "i64"
  | .flag => "a boolean"
  | .list => "a sequence"
  | .record kind => kind.title

/-- Floating-point numbers in messages are written in place for exponents from -5 to 15, otherwise
with a signed exponent. -/
def realLayout : Decimal.Layout where
  plainFrom := -5
  plainBelow := 16

/-- The words for a value that was found in place of another. -/
def describe : Json → String
  | .null => "null"
  | .bool true => "boolean `true`"
  | .bool false => "boolean `false`"
  | .integer value => s!"integer `{value}`"
  | .real value => s!"floating point `{realLayout.render value}`"
  | .string value => s!"string {Text.quoted value}"
  | .array _ => "sequence"
  | .object _ => "map"

/-- The first way in which a JSON value fails to be a table document. -/
inductive ShapeFault where
  | wrongKind (found : Json) (expected : Expected)
  | integerRange (found : Int)
  | tooShort (found : Nat) (record : Record)
  | tooLong
  | missingKey (key : String)
  | duplicateKey (key : String)
  | unknownKey (key : String) (record : Record)

/-- A name between backquotes. -/
def backquoted (name : String) : String := s!"`{name}`"

/-- The choice among names: one of two, or a list of more. -/
def alternatives : List String → String
  | [first, second] => s!"{backquoted first} or {backquoted second}"
  | names => "one of " ++ String.intercalate ", " (names.map backquoted)

/-- The wording of a shape fault. -/
def ShapeFault.message : ShapeFault → String
  | .wrongKind found expected =>
    s!"invalid type: {describe found}, expected {expected.description}"
  | .integerRange found => s!"invalid value: integer `{found}`, expected i64"
  | .tooShort found record =>
    s!"invalid length {found}, expected {record.title} with {record.keys.length} elements"
  | .tooLong => "trailing characters"
  | .missingKey key => s!"missing field `{key}`"
  | .duplicateKey key => s!"duplicate field `{key}`"
  | .unknownKey key record => s!"unknown field `{key}`, expected {alternatives record.keys}"

/-- Read a string. -/
def readText : Json → Except ShapeFault String
  | .string value => .ok value
  | other => .error (.wrongKind other .text)

/-- The number of integers of 64 bits that are not negative, and of those that are. -/
def halfRange : Int := 0x8000000000000000

/-- Read an integer of 64 signed bits. -/
def readInteger : Json → Except ShapeFault Int
  | .integer value =>
    if -halfRange ≤ value ∧ value < halfRange then .ok value else .error (.integerRange value)
  | other => .error (.wrongKind other .integer)

/-- Read a truth value. -/
def readFlag : Json → Except ShapeFault Bool
  | .bool value => .ok value
  | other => .error (.wrongKind other .flag)

/-- Read values one after the other. -/
def readEach {α : Type} (read : Json → Except ShapeFault α) : List Json → Except ShapeFault (List α)
  | [] => .ok []
  | value :: rest => do return (← read value) :: (← readEach read rest)

/-- Read a list of values of one kind. -/
def readList {α : Type} (read : Json → Except ShapeFault α) : Json → Except ShapeFault (List α)
  | .array elements => readEach read elements
  | other => .error (.wrongKind other .list)

/-- How to read each member of a record, by its key. -/
abbrev MemberReader (α : Type) := String → Option (Json → Except ShapeFault α)

/-- Read keyed values in text order; a key is looked at before its value. -/
def readMembers {α : Type} (record : Record) (reader : MemberReader α) (seen : List String) :
    List (String × Json) → Except ShapeFault (List α)
  | [] => .ok []
  | (key, value) :: rest =>
    match reader key with
    | none => .error (.unknownKey key record)
    | some read =>
      if key ∈ seen then .error (.duplicateKey key)
      else do return (← read value) :: (← readMembers record reader (key :: seen) rest)

/-- Read the members of a record, which is an object or an array of its values in key order. -/
def readRecord {α : Type} (record : Record) (reader : MemberReader α) :
    Json → Except ShapeFault (List α)
  | .object members => readMembers record reader [] members
  | .array elements => do
    let members ← readMembers record reader [] (record.keys.zip elements)
    if elements.length < record.required then .error (.tooShort elements.length record)
    else if record.keys.length < elements.length then .error .tooLong
    else return members
  | other => .error (.wrongKind other (.record record))

/-- The value of a key that has to be present. -/
def require {α β : Type} (key : String) (select : α → Option β) (members : List α) :
    Except ShapeFault β :=
  match members.findSome? select with
  | some value => .ok value
  | none => .error (.missingKey key)

/-- A member of the output record. -/
inductive OutputMember where
  | typeName (value : String)
  | fields (value : List String)
deriving DecidableEq, Repr

namespace OutputMember

def reader : MemberReader OutputMember
  | "type_name" => some fun value => .typeName <$> readText value
  | "fields" => some fun value => .fields <$> readList readText value
  | _ => none

def typeName? : OutputMember → Option String
  | .typeName value => some value
  | _ => none

def fields? : OutputMember → Option (List String)
  | .fields value => some value
  | _ => none

end OutputMember

/-- Read the output of a table. -/
def readOutput (value : Json) : Except ShapeFault Schema := do
  let members ← readRecord .output OutputMember.reader value
  let typeName ← require "type_name" OutputMember.typeName? members
  let fields ← require "fields" OutputMember.fields? members
  return ⟨typeName, fields⟩

/-- A member of a rule record. -/
inductive RuleMember where
  | name (value : String)
  | pattern (value : String)
  | asserted (value : List String)
  | enabled (value : Bool)
deriving DecidableEq, Repr

namespace RuleMember

def reader : MemberReader RuleMember
  | "instr" => some fun value => .name <$> readText value
  | "match" => some fun value => .pattern <$> readText value
  | "decodes" => some fun value => .asserted <$> readList readText value
  | "enabled" => some fun value => .enabled <$> readFlag value
  | _ => none

def name? : RuleMember → Option String
  | .name value => some value
  | _ => none

def pattern? : RuleMember → Option String
  | .pattern value => some value
  | _ => none

def asserted? : RuleMember → Option (List String)
  | .asserted value => some value
  | _ => none

def enabled? : RuleMember → Option Bool
  | .enabled value => some value
  | _ => none

end RuleMember

/-- Read a rule; it is enabled unless it says otherwise. -/
def readRule (value : Json) : Except ShapeFault Rule := do
  let members ← readRecord .rule RuleMember.reader value
  let name ← require "instr" RuleMember.name? members
  let pattern ← require "match" RuleMember.pattern? members
  let asserted ← require "decodes" RuleMember.asserted? members
  return ⟨name, pattern, asserted, (members.findSome? RuleMember.enabled?).getD true⟩

/-- A member of the table record. -/
inductive TableMember where
  | moduleName (value : String)
  | width (value : Int)
  | output (value : Schema)
  | rules (value : List Rule)
deriving DecidableEq, Repr

namespace TableMember

def reader : MemberReader TableMember
  | "module_name" => some fun value => .moduleName <$> readText value
  | "input" => some fun value => .width <$> readInteger value
  | "output" => some fun value => .output <$> readOutput value
  | "decodes" => some fun value => .rules <$> readList readRule value
  | _ => none

def moduleName? : TableMember → Option String
  | .moduleName value => some value
  | _ => none

def width? : TableMember → Option Int
  | .width value => some value
  | _ => none

def output? : TableMember → Option Schema
  | .output value => some value
  | _ => none

def rules? : TableMember → Option (List Rule)
  | .rules value => some value
  | _ => none

end TableMember

/-- Read the unchecked values of a table. -/
def readDraft (value : Json) : Except ShapeFault Draft := do
  let members ← readRecord .table TableMember.reader value
  let moduleName ← require "module_name" TableMember.moduleName? members
  let width ← require "input" TableMember.width? members
  let output ← require "output" TableMember.output? members
  let rules ← require "decodes" TableMember.rules? members
  return ⟨moduleName, width, output, rules⟩

/-- Why a text is not the document of a table. -/
inductive Fault where
  | notJson
  | shape (fault : ShapeFault)
  | table (fault : TableFault)

/-- The wording of a document fault. -/
def Fault.message : Fault → String
  | .notJson => "malformed table document: the text is not JSON"
  | .shape fault => "malformed table document: " ++ fault.message
  | .table fault => fault.message

/-- The table a JSON value describes. -/
def readTable (value : Json) : Except Fault Table :=
  match readDraft value with
  | .error fault => .error (.shape fault)
  | .ok draft => (Table.ofDraft draft).mapError .table

/-- The table a text describes. A text that is no JSON at all is refused before its shape is. -/
def parse (source : String) : Except Fault Table :=
  match Json.parse? source with
  | none => .error .notJson
  | some value => readTable value

end Document
end DecoderGen
