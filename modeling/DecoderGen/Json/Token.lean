import DecoderGen.Json.Numeral

/-! # JSON tokens

Splits a text into punctuation, words, numbers and strings, with blanks between them dropped. A
text is refused if some part of it is no token at all: a control character in a string, an unknown
escape, half of a surrogate pair, a number that is malformed or out of range.
-/

namespace DecoderGen.Json

/-- A lexical unit; a scalar carries its value. -/
inductive Token where
  | arrayStart
  | arrayEnd
  | objectStart
  | objectEnd
  | colon
  | comma
  | text (value : String)
  | scalar (value : Json)

/-- The characters that may stand between tokens. -/
def isBlank (symbol : Char) : Bool :=
  symbol == ' ' || symbol == '\t' || symbol == '\n' || symbol == '\r'

namespace Text

/-- The value of a hexadecimal digit. -/
def hexValue? (digit : Char) : Option Nat :=
  if digit.isDigit then some (digit.toNat - '0'.toNat)
  else if 'a' ≤ digit ∧ digit ≤ 'f' then some (digit.toNat - 'a'.toNat + 10)
  else if 'A' ≤ digit ∧ digit ≤ 'F' then some (digit.toNat - 'A'.toNat + 10)
  else none

/-- The 16-bit unit written by four hexadecimal digits. -/
def unit? : List Char → Option (Nat × List Char)
  | a :: b :: c :: d :: rest => do
    let a ← hexValue? a
    let b ← hexValue? b
    let c ← hexValue? c
    let d ← hexValue? d
    return (((a * 16 + b) * 16 + c) * 16 + d, rest)
  | _ => none

/-- Whether a unit opens a surrogate pair. -/
def isHighSurrogate (unit : Nat) : Bool := 0xD800 ≤ unit && unit < 0xDC00

/-- Whether a unit closes a surrogate pair. -/
def isLowSurrogate (unit : Nat) : Bool := 0xDC00 ≤ unit && unit < 0xE000

/-- The code point of a surrogate pair. -/
def pairValue (high low : Nat) : Nat := 0x10000 + (high - 0xD800) * 0x400 + (low - 0xDC00)

/-- The second half of a surrogate pair, which has to follow the first as an escape of its own. -/
def lowSurrogate? : List Char → Option (Nat × List Char)
  | '\\' :: 'u' :: rest => do
    let (low, rest) ← unit? rest
    if isLowSurrogate low then some (low, rest) else none
  | _ => none

/-- The character a numeric escape stands for, read after its `u`. -/
def codePoint? (text : List Char) : Option (Char × List Char) := do
  let (unit, rest) ← unit? text
  if isHighSurrogate unit then
    let (low, rest) ← lowSurrogate? rest
    return (Char.ofNat (pairValue unit low), rest)
  else if isLowSurrogate unit then none
  else return (Char.ofNat unit, rest)

/-- The character an escape stands for, read after its backslash. -/
def escape? : List Char → Option (Char × List Char)
  | '"' :: rest => some ('"', rest)
  | '\\' :: rest => some ('\\', rest)
  | '/' :: rest => some ('/', rest)
  | 'b' :: rest => some ('\x08', rest)
  | 'f' :: rest => some ('\x0c', rest)
  | 'n' :: rest => some ('\n', rest)
  | 'r' :: rest => some ('\r', rest)
  | 't' :: rest => some ('\t', rest)
  | 'u' :: rest => codePoint? rest
  | _ => none

theorem unit?_length {text rest : List Char} {unit : Nat} (read : unit? text = some (unit, rest)) :
    rest.length < text.length := by
  unfold unit? at read
  split at read
  · simp only [bind, Option.bind_eq_some_iff, pure, Option.some.injEq, Prod.mk.injEq] at read
    obtain ⟨_, _, _, _, _, _, _, _, _, rfl⟩ := read
    simp only [List.length_cons]
    omega
  · cases read

theorem lowSurrogate?_length {text rest : List Char} {unit : Nat}
    (read : lowSurrogate? text = some (unit, rest)) : rest.length < text.length := by
  unfold lowSurrogate? at read
  split at read
  · simp only [bind, Option.bind_eq_some_iff] at read
    obtain ⟨⟨low, after⟩, unitRead, final⟩ := read
    split at final
    · cases final
      have shorter := unit?_length unitRead
      simp only [List.length_cons]
      omega
    · cases final
  · cases read

theorem codePoint?_length {text rest : List Char} {symbol : Char}
    (read : codePoint? text = some (symbol, rest)) : rest.length < text.length := by
  simp only [codePoint?, bind, Option.bind_eq_some_iff] at read
  obtain ⟨⟨unit, after⟩, unitRead, final⟩ := read
  have shorter := unit?_length unitRead
  split at final
  · simp only [Option.bind_eq_some_iff] at final
    obtain ⟨⟨low, last⟩, lowRead, same⟩ := final
    obtain ⟨_, rfl⟩ := Prod.mk.inj (Option.some.inj same)
    exact Nat.lt_trans (lowSurrogate?_length lowRead) shorter
  · split at final
    · cases final
    · obtain ⟨_, rfl⟩ := Prod.mk.inj (Option.some.inj final)
      exact shorter

/-- An escape takes at least one character after its backslash. -/
theorem escape?_length {text rest : List Char} {symbol : Char}
    (read : escape? text = some (symbol, rest)) : rest.length < text.length := by
  unfold escape? at read
  split at read
  case h_9 =>
    have shorter := codePoint?_length read
    simp only [List.length_cons]
    omega
  case h_10 => cases read
  all_goals
    cases read
    simp

/-- The characters of a string after its opening quote, and what follows its closing quote. -/
def scan? (text : List Char) : Option (List Char × List Char) :=
  match text with
  | [] => none
  | '"' :: rest => some ([], rest)
  | '\\' :: rest =>
    match _found : escape? rest with
    | none => none
    | some (symbol, after) => do
      let (symbols, last) ← scan? after
      return (symbol :: symbols, last)
  | symbol :: rest =>
    if symbol.toNat < 0x20 then none
    else do
      let (symbols, last) ← scan? rest
      return (symbol :: symbols, last)
termination_by text.length
decreasing_by
  · have shorter := escape?_length _found
    simp only [List.length_cons]
    omega
  · simp

/-- A string takes at least its closing quote. -/
theorem scan?_length {text rest symbols : List Char} (read : scan? text = some (symbols, rest)) :
    rest.length < text.length := by
  fun_induction scan? text generalizing symbols rest with
  | case1 => cases read
  | case2 last =>
    cases read
    simp
  | case3 => cases read
  | case4 text symbol after found ih =>
    simp only [bind, Option.bind_eq_some_iff] at read
    obtain ⟨⟨inner, last⟩, scanned, same⟩ := read
    cases same
    have shorter := escape?_length found
    have bound := ih scanned
    simp only [List.length_cons]
    omega
  | case5 => cases read
  | case6 text symbol _ _ _ ih =>
    simp only [bind, Option.bind_eq_some_iff] at read
    obtain ⟨⟨inner, last⟩, scanned, same⟩ := read
    cases same
    have bound := ih scanned
    simp only [List.length_cons]
    omega

end Text

namespace Token

/-- The rest of a text after a word it starts with. -/
def after? (word text : List Char) : Option (List Char) :=
  if word.isPrefixOf text then some (text.drop word.length) else none

/-- Read a word that stands for a scalar. -/
def word? (word : String) (value : Json) (text : List Char) : Option (Token × List Char) :=
  (after? word.toList text).map fun rest => (.scalar value, rest)

/-- Read a number. -/
def number? (text : List Char) : Option (Token × List Char) := do
  let (numeral, rest) ← Numeral.scan? text
  return (.scalar (← numeral.value?), rest)

/-- Read the token at the start of a text. -/
def scan? (text : List Char) : Option (Token × List Char) :=
  match text with
  | [] => none
  | '[' :: rest => some (.arrayStart, rest)
  | ']' :: rest => some (.arrayEnd, rest)
  | '\x7b' :: rest => some (.objectStart, rest)
  | '\x7d' :: rest => some (.objectEnd, rest)
  | ':' :: rest => some (.colon, rest)
  | ',' :: rest => some (.comma, rest)
  | '"' :: rest => (Text.scan? rest).map fun (symbols, last) => (.text (String.ofList symbols), last)
  | 'n' :: _ => word? "null" .null text
  | 't' :: _ => word? "true" (.bool true) text
  | 'f' :: _ => word? "false" (.bool false) text
  | _ => number? text

theorem after?_length {word text rest : List Char} (nonempty : word ≠ [])
    (read : after? word text = some rest) : rest.length < text.length := by
  unfold after? at read
  split at read
  · next starts =>
    cases read
    have bound := (List.isPrefixOf_iff_prefix.mp starts).length_le
    have positive := List.length_pos_iff.mpr nonempty
    simp only [List.length_drop]
    omega
  · cases read

theorem word?_length {word : String} {value : Json} {text rest : List Char} {token : Token}
    (nonempty : word.toList ≠ []) (read : word? word value text = some (token, rest)) :
    rest.length < text.length := by
  obtain ⟨after, found, same⟩ := Option.map_eq_some_iff.mp read
  cases same
  exact after?_length nonempty found

theorem number?_length {text rest : List Char} {token : Token}
    (read : number? text = some (token, rest)) : rest.length < text.length := by
  simp only [number?, bind, Option.bind_eq_some_iff] at read
  obtain ⟨⟨numeral, after⟩, scanned, value, _, same⟩ := read
  cases same
  exact Numeral.scan?_length scanned

/-- Every token leaves less of the text than it found. -/
theorem scan?_length {text rest : List Char} {token : Token}
    (read : scan? text = some (token, rest)) : rest.length < text.length := by
  unfold scan? at read
  split at read
  case h_1 => cases read
  case h_8 =>
    obtain ⟨⟨symbols, last⟩, found, same⟩ := Option.map_eq_some_iff.mp read
    cases same
    have bound := Text.scan?_length found
    simp only [List.length_cons]
    omega
  case h_9 => exact word?_length (by decide) read
  case h_10 => exact word?_length (by decide) read
  case h_11 => exact word?_length (by decide) read
  case h_12 => exact number?_length read
  all_goals
    cases read
    simp

/-- The tokens of a text, in order. -/
def all? (text : List Char) : Option (List Token) :=
  match text with
  | [] => some []
  | symbol :: rest =>
    if isBlank symbol then all? rest
    else
      match _found : scan? (symbol :: rest) with
      | none => none
      | some (token, after) => (all? after).map (token :: ·)
termination_by text.length
decreasing_by
  · simp
  · exact scan?_length _found

end Token
end DecoderGen.Json
