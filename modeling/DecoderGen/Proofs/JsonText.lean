import DecoderGen.Json.Parser

/-! # The writing of JSON

Which texts write which value, as RFC 8259 has it and without regard to how a text is read. A value
is a sequence of tokens; blanks may stand around each of them. A string may write a character as it
stands, by a short escape, or by its UTF-16 units as hexadecimal numbers; quotes, backslashes and
control characters have to be escaped. Integers are written in decimal notation. Numbers with
fractions or exponents are left out.

One text of each value, without blanks, can be computed.
-/

namespace DecoderGen.Json

namespace Text

/-- The letters of short escapes with the characters they stand for. -/
def shortEscapes : List (Char × Char) :=
  [('"', '"'), ('\\', '\\'), ('/', '/'), ('b', '\x08'), ('f', '\x0c'), ('n', '\n'), ('r', '\r'),
    ('t', '\t')]

/-- A hexadecimal digit in either case. -/
def IsHexDigit (value : Nat) (digit : Char) : Prop :=
  "0123456789abcdef".toList[value]? = some digit ∨ "0123456789ABCDEF".toList[value]? = some digit

/-- The four hexadecimal digits of a 16-bit unit. -/
inductive IsUnit (unit : Nat) : List Char → Prop
  | digits {a b c d : Char} (first : IsHexDigit (unit / 0x1000) a)
      (second : IsHexDigit (unit / 0x100 % 0x10) b) (third : IsHexDigit (unit / 0x10 % 0x10) c)
      (fourth : IsHexDigit (unit % 0x10) d) : IsUnit unit [a, b, c, d]

/-- The ways to write a character in a string. -/
inductive Writes (symbol : Char) : List Char → Prop
  | plain (visible : 0x20 ≤ symbol.toNat) (notQuote : symbol ≠ '"') (notEscape : symbol ≠ '\\') :
      Writes symbol [symbol]
  | short {letter : Char} (listed : (letter, symbol) ∈ shortEscapes) : Writes symbol ['\\', letter]
  | unit {digits : List Char} (basic : symbol.toNat < 0x10000)
      (written : IsUnit symbol.toNat digits) : Writes symbol ('\\' :: 'u' :: digits)
  | pair {high low : List Char} (beyond : 0x10000 ≤ symbol.toNat)
      (first : IsUnit (0xD800 + (symbol.toNat - 0x10000) / 0x400) high)
      (second : IsUnit (0xDC00 + (symbol.toNat - 0x10000) % 0x400) low) :
      Writes symbol ('\\' :: 'u' :: high ++ '\\' :: 'u' :: low)

/-- The ways to write the characters of a string between its quotes. -/
inductive WritesAll : List Char → List Char → Prop
  | nil : WritesAll [] []
  | cons {symbol : Char} {symbols written rest : List Char} (first : Writes symbol written)
      (later : WritesAll symbols rest) : WritesAll (symbol :: symbols) (written ++ rest)

end Text

/-- Decimal notation. -/
def decimal : Int → List Char
  | .ofNat value => Nat.toDigits 10 value
  | .negSucc value => '-' :: Nat.toDigits 10 (value + 1)

namespace Token

/-- The ways to write a token. An integer has 64 bits, signed or not. -/
inductive Writes : Token → List Char → Prop
  | arrayStart : Writes .arrayStart ['[']
  | arrayEnd : Writes .arrayEnd [']']
  | objectStart : Writes .objectStart ['\x7b']
  | objectEnd : Writes .objectEnd ['\x7d']
  | colon : Writes .colon [':']
  | comma : Writes .comma [',']
  | null : Writes (.scalar .null) "null".toList
  | bool {value : Bool} : Writes (.scalar (.bool value)) (if value then "true" else "false").toList
  | integer {value : Int} (above : -0x8000000000000000 ≤ value)
      (below : value < 0x10000000000000000) :
      Writes (.scalar (.integer value)) (decimal value)
  | text {value : String} {written : List Char} (inside : Text.WritesAll value.toList written) :
      Writes (.text value) ('"' :: written ++ ['"'])

/-- The ways to write tokens one after the other, with blanks around each. -/
inductive WritesAll : List Token → List Char → Prop
  | nil {blanks : List Char} (blank : ∀ symbol ∈ blanks, symbol ∈ [' ', '\t', '\n', '\r']) :
      WritesAll [] blanks
  | cons {token : Token} {tokens : List Token} {blanks written rest : List Char}
      (blank : ∀ symbol ∈ blanks, symbol ∈ [' ', '\t', '\n', '\r'])
      (first : Writes token written) (later : WritesAll tokens rest) :
      WritesAll (token :: tokens) (blanks ++ written ++ rest)

end Token

mutual

/-- The tokens of a value. -/
def tokens : Json → List Token
  | .string value => [.text value]
  | .array [] => [.arrayStart, .arrayEnd]
  | .array (first :: rest) => .arrayStart :: (first.tokens ++ furtherElements rest)
  | .object [] => [.objectStart, .objectEnd]
  | .object ((key, value) :: rest) =>
    .objectStart :: .text key :: .colon :: (value.tokens ++ furtherMembers rest)
  | scalar => [.scalar scalar]

/-- The tokens behind an element of an array: further elements, and the end. -/
def furtherElements : List Json → List Token
  | [] => [.arrayEnd]
  | element :: rest => .comma :: (element.tokens ++ furtherElements rest)

/-- The tokens behind a member of an object: further members, and the end. -/
def furtherMembers : List (String × Json) → List Token
  | [] => [.objectEnd]
  | (key, value) :: rest => .comma :: .text key :: .colon :: (value.tokens ++ furtherMembers rest)

end

mutual

/-- The largest number of containers inside one another. -/
def depth : Json → Nat
  | .array elements => elementDepth elements + 1
  | .object members => memberDepth members + 1
  | _ => 0

/-- The depth of the deepest element. -/
def elementDepth : List Json → Nat
  | [] => 0
  | element :: rest => max element.depth (elementDepth rest)

/-- The depth of the deepest member. -/
def memberDepth : List (String × Json) → Nat
  | [] => 0
  | (_, value) :: rest => max value.depth (memberDepth rest)

end

/-- A text writes a value. -/
def Writes (value : Json) (text : String) : Prop := Token.WritesAll value.tokens text.toList

/-! ## A text for every value -/

namespace Text

/-- A character of a string, escaped where it has to be. -/
def escaped (symbol : Char) : List Char :=
  if symbol = '"' ∨ symbol = '\\' then ['\\', symbol]
  else if symbol.toNat < 0x20 then
    ['\\', 'u', '0', '0', Nat.digitChar (symbol.toNat / 0x10), Nat.digitChar (symbol.toNat % 0x10)]
  else [symbol]

theorem isHexDigit_digitChar : ∀ value < 0x10, IsHexDigit value (Nat.digitChar value) := by
  unfold IsHexDigit
  decide

theorem writes_escaped (symbol : Char) : Writes symbol (escaped symbol) := by
  unfold escaped
  split
  · next special =>
    rcases special with rfl | rfl <;> exact .short (by decide)
  · next ordinary =>
    rw [not_or] at ordinary
    split
    · next control =>
      have first : symbol.toNat / 0x1000 = 0 := by omega
      have second : symbol.toNat / 0x100 % 0x10 = 0 := by omega
      have third : symbol.toNat / 0x10 % 0x10 = symbol.toNat / 0x10 := by omega
      refine .unit (by omega) ⟨?_, ?_, ?_, isHexDigit_digitChar _ (by omega)⟩
      · rw [first]
        exact isHexDigit_digitChar 0 (by decide)
      · rw [second]
        exact isHexDigit_digitChar 0 (by decide)
      · rw [third]
        exact isHexDigit_digitChar _ (by omega)
    · next visible => exact .plain (Nat.not_lt.mp visible) ordinary.1 ordinary.2

theorem writesAll_escaped (symbols : List Char) : WritesAll symbols (symbols.flatMap escaped) := by
  induction symbols with
  | nil => exact .nil
  | cons symbol symbols ih =>
    rw [List.flatMap_cons]
    exact .cons (writes_escaped symbol) ih

end Text

/-- A text of a token. Numbers with fractions or exponents, and integers of more than 64 bits, have
none. -/
def Token.render : Token → List Char
  | .arrayStart => ['[']
  | .arrayEnd => [']']
  | .objectStart => ['\x7b']
  | .objectEnd => ['\x7d']
  | .colon => [':']
  | .comma => [',']
  | .text value => '"' :: value.toList.flatMap Text.escaped ++ ['"']
  | .scalar .null => "null".toList
  | .scalar (.bool value) => (if value then "true" else "false").toList
  | .scalar (.integer value) => decimal value
  | .scalar _ => []

/-- The text of a value without blanks. -/
def render (value : Json) : String := String.ofList (value.tokens.flatMap Token.render)

/-- Every token of a value has a text. -/
def Writable (value : Json) : Prop := ∀ token ∈ value.tokens, token.Writes token.render

theorem Token.writes_render_text (value : String) :
    Token.Writes (.text value) (Token.text value).render :=
  .text (Text.writesAll_escaped value.toList)

theorem writesAll_render {tokens : List Token}
    (each : ∀ token ∈ tokens, token.Writes token.render) :
    Token.WritesAll tokens (tokens.flatMap Token.render) := by
  induction tokens with
  | nil => exact .nil nofun
  | cons token tokens ih =>
    obtain ⟨first, later⟩ := List.forall_mem_cons.mp each
    rw [List.flatMap_cons, ← List.nil_append token.render]
    exact .cons nofun first (ih later)

theorem Writable.writes_render {value : Json} (writable : value.Writable) :
    value.Writes value.render := by
  rw [Json.Writes, render, String.toList_ofList]
  exact writesAll_render writable

theorem writable_string (value : String) : (Json.string value).Writable := by
  rw [Writable, tokens, List.forall_mem_singleton]
  exact Token.writes_render_text value

theorem writable_bool (value : Bool) : (Json.bool value).Writable := by
  rw [Writable, tokens, List.forall_mem_singleton]
  · exact .bool
  all_goals nofun

theorem writable_integer {value : Int} (above : -0x8000000000000000 ≤ value)
    (below : value < 0x10000000000000000) : (Json.integer value).Writable := by
  rw [Writable, tokens, List.forall_mem_singleton]
  · exact .integer above below
  all_goals nofun

theorem writable_array {elements : List Json} (each : ∀ element ∈ elements, element.Writable) :
    (Json.array elements).Writable := by
  have further : ∀ elements : List Json, (∀ element ∈ elements, element.Writable) →
      ∀ token ∈ furtherElements elements, token.Writes token.render := by
    intro elements
    induction elements with
    | nil =>
      intro _
      rw [furtherElements, List.forall_mem_singleton]
      exact .arrayEnd
    | cons element elements ih =>
      intro each
      obtain ⟨first, later⟩ := List.forall_mem_cons.mp each
      rw [furtherElements, List.forall_mem_cons, List.forall_mem_append]
      exact ⟨.comma, first, ih later⟩
  cases elements with
  | nil =>
    rw [Writable, tokens, List.forall_mem_cons, List.forall_mem_singleton]
    exact ⟨.arrayStart, .arrayEnd⟩
  | cons element elements =>
    obtain ⟨first, later⟩ := List.forall_mem_cons.mp each
    rw [Writable, tokens, List.forall_mem_cons, List.forall_mem_append]
    exact ⟨.arrayStart, first, further elements later⟩

theorem writable_object {members : List (String × Json)}
    (each : ∀ member ∈ members, member.2.Writable) : (Json.object members).Writable := by
  have further : ∀ members : List (String × Json), (∀ member ∈ members, member.2.Writable) →
      ∀ token ∈ furtherMembers members, token.Writes token.render := by
    intro members
    induction members with
    | nil =>
      intro _
      rw [furtherMembers, List.forall_mem_singleton]
      exact .objectEnd
    | cons member members ih =>
      intro each
      obtain ⟨first, later⟩ := List.forall_mem_cons.mp each
      rw [furtherMembers, List.forall_mem_cons, List.forall_mem_cons, List.forall_mem_cons,
        List.forall_mem_append]
      exact ⟨.comma, Token.writes_render_text _, .colon, first, ih later⟩
  cases members with
  | nil =>
    rw [Writable, tokens, List.forall_mem_cons, List.forall_mem_singleton]
    exact ⟨.objectStart, .objectEnd⟩
  | cons member members =>
    obtain ⟨first, later⟩ := List.forall_mem_cons.mp each
    rw [Writable, tokens, List.forall_mem_cons, List.forall_mem_cons, List.forall_mem_cons,
      List.forall_mem_append]
    exact ⟨.objectStart, Token.writes_render_text _, .colon, first, further members later⟩

end DecoderGen.Json
