import DecoderGen.Proofs.JsonText
import DecoderGen.Proofs.LegalNames

/-! # Reading back what is written

Every text that writes a value is read as that value, if the containers in it are not too deep. Its
characters are split into the tokens of the value, and these lead the parser to the value.
-/

namespace DecoderGen.Json

/-! ## Strings -/

namespace Text

theorem hexValue?_of_isHexDigit {value : Nat} {digit : Char} (hex : IsHexDigit value digit) :
    hexValue? digit = some value := by
  have lowerTable : "0123456789abcdef".toList.map hexValue? = (List.range 16).map some := by decide
  have upperTable : "0123456789ABCDEF".toList.map hexValue? = (List.range 16).map some := by decide
  have entry : ∀ digits : List Char, digits.map hexValue? = (List.range 16).map some →
      digits[value]? = some digit → hexValue? digit = some value := by
    intro digits table listed
    have bound : value < 16 := by
      have length := congrArg List.length table
      have inside := (List.getElem?_eq_some_iff.mp listed).1
      simp only [List.length_map, List.length_range] at length
      omega
    have here := congrArg (·[value]?) table
    simpa only [List.getElem?_map, listed, List.getElem?_range bound, Option.map_some,
      Option.some.injEq] using here
  rcases hex with lower | upper
  · exact entry _ lowerTable lower
  · exact entry _ upperTable upper

theorem unit?_of_isUnit {unit : Nat} {digits : List Char} (written : IsUnit unit digits)
    (rest : List Char) : unit? (digits ++ rest) = some (unit, rest) := by
  obtain ⟨first, second, third, fourth⟩ := written
  have whole : ((unit / 0x1000 * 16 + unit / 0x100 % 0x10) * 16 + unit / 0x10 % 0x10) * 16 +
      unit % 0x10 = unit := by omega
  simp only [List.cons_append, List.nil_append, unit?, hexValue?_of_isHexDigit first,
    hexValue?_of_isHexDigit second, hexValue?_of_isHexDigit third, hexValue?_of_isHexDigit fourth,
    Option.bind_eq_bind, Option.bind_some, whole]
  rfl

theorem codePoint?_of_unit {symbol : Char} {digits : List Char}
    (written : IsUnit symbol.toNat digits) (basic : symbol.toNat < 0x10000) (rest : List Char) :
    codePoint? (digits ++ rest) = some (symbol, rest) := by
  have valid : symbol.toNat < 0xD800 ∨ 0xDFFF < symbol.toNat ∧ symbol.toNat < 0x110000 :=
    symbol.valid
  have noHigh : isHighSurrogate symbol.toNat = false := by
    simp only [isHighSurrogate, Bool.and_eq_false_iff, decide_eq_false_iff_not]
    omega
  have noLow : isLowSurrogate symbol.toNat = false := by
    simp only [isLowSurrogate, Bool.and_eq_false_iff, decide_eq_false_iff_not]
    omega
  simp only [codePoint?, unit?_of_isUnit written rest, Option.bind_eq_bind, Option.bind_some,
    noHigh, noLow, Bool.false_eq_true, if_false, Char.ofNat_toNat]
  rfl

theorem codePoint?_of_surrogates {high low : Nat} {first second : List Char}
    (isHigh : isHighSurrogate high = true) (isLow : isLowSurrogate low = true)
    (writtenHigh : IsUnit high first) (writtenLow : IsUnit low second) (rest : List Char) :
    codePoint? (first ++ '\\' :: 'u' :: (second ++ rest)) =
      some (Char.ofNat (pairValue high low), rest) := by
  simp only [codePoint?, unit?_of_isUnit writtenHigh, Option.bind_eq_bind, Option.bind_some, isHigh,
    if_true, lowSurrogate?, unit?_of_isUnit writtenLow, isLow]
  rfl

theorem codePoint?_of_pair {symbol : Char} {high low : List Char} (beyond : 0x10000 ≤ symbol.toNat)
    (first : IsUnit (0xD800 + (symbol.toNat - 0x10000) / 0x400) high)
    (second : IsUnit (0xDC00 + (symbol.toNat - 0x10000) % 0x400) low) (rest : List Char) :
    codePoint? (high ++ '\\' :: 'u' :: (low ++ rest)) = some (symbol, rest) := by
  have valid : symbol.toNat < 0xD800 ∨ 0xDFFF < symbol.toNat ∧ symbol.toNat < 0x110000 :=
    symbol.valid
  rw [codePoint?_of_surrogates ?_ ?_ first second]
  · have whole : pairValue (0xD800 + (symbol.toNat - 0x10000) / 0x400)
        (0xDC00 + (symbol.toNat - 0x10000) % 0x400) = symbol.toNat := by
      unfold pairValue
      omega
    rw [whole, Char.ofNat_toNat]
  · simp only [isHighSurrogate, Bool.and_eq_true, decide_eq_true_eq]
    omega
  · simp only [isLowSurrogate, Bool.and_eq_true, decide_eq_true_eq]
    omega

theorem escape?_of_short {letter symbol : Char} (listed : (letter, symbol) ∈ shortEscapes)
    (rest : List Char) : escape? (letter :: rest) = some (symbol, rest) := by
  simp only [shortEscapes, List.mem_cons, Prod.mk.injEq, List.not_mem_nil, or_false] at listed
  rcases listed with ⟨rfl, rfl⟩ | ⟨rfl, rfl⟩ | ⟨rfl, rfl⟩ | ⟨rfl, rfl⟩ | ⟨rfl, rfl⟩ | ⟨rfl, rfl⟩ |
    ⟨rfl, rfl⟩ | ⟨rfl, rfl⟩ <;> rfl

theorem scan?_plain {symbol : Char} (visible : 0x20 ≤ symbol.toNat) (notQuote : symbol ≠ '"')
    (notEscape : symbol ≠ '\\') {rest symbols last : List Char}
    (scanned : scan? rest = some (symbols, last)) :
    scan? (symbol :: rest) = some (symbol :: symbols, last) := by
  rw [scan?]
  · simp only [Nat.not_lt.mpr visible, if_false, scanned, Option.bind_eq_bind, Option.bind_some]
    rfl
  · exact notQuote
  · exact notEscape

theorem scan?_escape {symbol : Char} {text rest symbols last : List Char}
    (escape : escape? text = some (symbol, rest)) (scanned : scan? rest = some (symbols, last)) :
    scan? ('\\' :: text) = some (symbol :: symbols, last) := by
  rw [scan?]
  split
  · next none => simp [escape] at none
  · next found =>
    rw [escape] at found
    cases found
    simp only [scanned, Option.bind_eq_bind, Option.bind_some]
    rfl

/-- A character is read back, whichever way it is written. -/
theorem Writes.scan? {symbol : Char} {written : List Char} (writes : Writes symbol written)
    {rest symbols last : List Char} (scanned : Text.scan? rest = some (symbols, last)) :
    Text.scan? (written ++ rest) = some (symbol :: symbols, last) := by
  cases writes with
  | plain visible notQuote notEscape => exact scan?_plain visible notQuote notEscape scanned
  | short listed => exact scan?_escape (escape?_of_short listed rest) scanned
  | unit basic digits => exact scan?_escape (codePoint?_of_unit digits basic rest) scanned
  | pair beyond first second =>
    rw [List.append_assoc]
    exact scan?_escape (codePoint?_of_pair beyond first second rest) scanned

theorem WritesAll.scan? {symbols written : List Char} (writes : WritesAll symbols written)
    (rest : List Char) : Text.scan? (written ++ '"' :: rest) = some (symbols, rest) := by
  induction writes with
  | nil => rw [List.nil_append, Text.scan?]
  | cons first _ ih =>
    rw [List.append_assoc]
    exact first.scan? ih

end Text

/-! ## Numbers -/

/-- Whether a character behind digits belongs to the same number. -/
def continuesNumber (symbol : Char) : Bool := symbol.isDigit || symbol ∈ ['.', 'e', 'E']

namespace Numeral

theorem digits?_append {digits rest : List Char} (some : digits ≠ [])
    (digit : ∀ symbol ∈ digits, symbol.isDigit = true)
    (stops : rest.head?.any continuesNumber = false) :
    digits? (digits ++ rest) = .some (digits, rest) := by
  have outside : rest.head?.any Char.isDigit = false := by
    cases rest with
    | nil => rfl
    | cons symbol rest =>
      simp only [List.head?_cons, Option.any_some, continuesNumber, Bool.or_eq_false_iff] at stops ⊢
      exact stops.1
  obtain ⟨taken, behind⟩ := takeWhile_append_of_head? digit outside
  unfold digits?
  rw [taken, behind]
  cases digits with
  | nil => exact absurd rfl some
  | cons symbol digits => rfl

theorem fraction?_eq {rest : List Char} (stops : rest.head?.any continuesNumber = false) :
    fraction? rest = some (none, rest) := by
  unfold fraction?
  split
  · cases stops
  · rfl

theorem exponent?_eq {rest : List Char} (stops : rest.head?.any continuesNumber = false) :
    exponent? rest = some (none, rest) := by
  unfold exponent?
  split
  · cases stops
  · cases stops
  · rfl

/-- Decimal digits start with a zero only if they are a single one. -/
theorem head?_toDigits {value : Nat} (zero : (Nat.toDigits 10 value).head? = some '0') :
    value = 0 := by
  induction value using Nat.strongRecOn with
  | ind value ih =>
    by_cases small : value < 10
    · rw [Nat.toDigits_of_lt_base small] at zero
      have table : ∀ digit < 10, Nat.digitChar digit = '0' → digit = 0 := by decide
      exact table value small (Option.some.inj zero)
    · rw [Nat.toDigits_of_base_le (by decide) (by omega), List.head?_append,
        List.head?_eq_some_head Nat.toDigits_ne_nil, Option.some_or,
        ← List.head?_eq_some_head Nat.toDigits_ne_nil] at zero
      have front := ih (value / 10) (by omega) zero
      omega

theorem toDigits_eq_cons (value : Nat) :
    ∃ first rest, Nat.toDigits 10 value = first :: rest ∧ first.isDigit = true := by
  obtain ⟨first, rest, split⟩ := List.exists_cons_of_ne_nil (@Nat.toDigits_ne_nil value 10)
  have listed : first ∈ Nat.toDigits 10 value := by
    rw [split]
    exact List.mem_cons_self
  exact ⟨first, rest, split, Nat.isDigit_of_mem_toDigits (by decide) (by decide) listed⟩

theorem whole?_toDigits (value : Nat) {rest : List Char}
    (stops : rest.head?.any continuesNumber = false) :
    whole? (Nat.toDigits 10 value ++ rest) = some (Nat.toDigits 10 value, rest) := by
  have digit : ∀ symbol ∈ Nat.toDigits 10 value, symbol.isDigit = true :=
    fun symbol member => Nat.isDigit_of_mem_toDigits (by decide) (by decide) member
  have digits := digits?_append Nat.toDigits_ne_nil digit stops
  have single :
      ¬ ((Nat.toDigits 10 value).head? = some '0' ∧ (Nat.toDigits 10 value).length ≠ 1) := by
    rintro ⟨zero, long⟩
    rw [head?_toDigits zero, Nat.toDigits_zero] at long
    exact long rfl
  simp only [whole?, digits, Option.bind_eq_bind, Option.bind_some, single, if_false]

theorem natural_toDigits (value : Nat) : natural (Nat.toDigits 10 value) = value := by
  have same : natural (Nat.toDigits 10 value) = Nat.ofDigitChars 10 (Nat.toDigits 10 value) 0 := by
    unfold natural Nat.ofDigitChars
    congr 1
    funext sofar digit
    rw [digitValue, Nat.mul_comm]
  rw [same, Nat.ofDigitChars_ten_toDigits]

/-- The literal of an integer. -/
def ofInteger : Int → Numeral
  | .ofNat value => ⟨false, Nat.toDigits 10 value, none, none⟩
  | .negSucc value => ⟨true, Nat.toDigits 10 (value + 1), none, none⟩

theorem scan?_decimal (value : Int) {rest : List Char}
    (stops : rest.head?.any continuesNumber = false) :
    scan? (decimal value ++ rest) = some (ofInteger value, rest) := by
  cases value with
  | ofNat value =>
    have unsigned : sign (Nat.toDigits 10 value ++ rest) =
        (false, Nat.toDigits 10 value ++ rest) := by
      obtain ⟨first, digits, split, digit⟩ := toDigits_eq_cons value
      rw [split, List.cons_append, sign]
      rintro _ ⟨⟩
      cases digit
    simp only [decimal, scan?, unsigned, whole?_toDigits value stops, fraction?_eq stops,
      exponent?_eq stops, Option.bind_eq_bind, Option.bind_some]
    rfl
  | negSucc value =>
    simp only [decimal, List.cons_append, scan?, sign, whole?_toDigits (value + 1) stops,
      fraction?_eq stops, exponent?_eq stops, Option.bind_eq_bind, Option.bind_some]
    rfl

theorem value?_ofInteger {value : Int} (above : -0x8000000000000000 ≤ value)
    (below : value < 0x10000000000000000) :
    (ofInteger value).value? = some (.integer value) := by
  have read : (ofInteger value).integer? = some value := by
    cases value with
    | ofNat value =>
      have fits : ¬ maxSignificand < value := by
        rw [Int.ofNat_eq_natCast] at below
        rw [maxSignificand]
        omega
      simp only [ofInteger, integer?, natural_toDigits, fits, Option.isSome_none, Bool.or_self,
        Bool.false_eq_true, if_false]
      rfl
    | negSucc value =>
      have fits : ¬ (value + 1 = 0 ∨ maxNegative < value + 1) := by
        rw [maxNegative]
        omega
      simp only [ofInteger, integer?, natural_toDigits, fits, Option.isSome_none, Bool.or_self,
        Bool.false_eq_true, if_false, if_true]
      rfl
  rw [value?, read]

end Numeral

/-! ## Tokens -/

namespace Token

/-- Whether a token is a number or a word. -/
def isScalar : Token → Bool
  | .scalar _ => true
  | _ => false

theorem starts_decimal (value : Int) :
    ∃ first later, decimal value = first :: later ∧ (first.isDigit = true ∨ first = '-') := by
  cases value with
  | ofNat value =>
    obtain ⟨first, later, split, digit⟩ := Numeral.toDigits_eq_cons value
    exact ⟨first, later, split, .inl digit⟩
  | negSucc value => exact ⟨'-', _, rfl, .inr rfl⟩

theorem isBlank_of_isDigit {symbol : Char} (digit : symbol.isDigit = true) :
    isBlank symbol = false := by
  simp only [isBlank, Bool.or_eq_false_iff, beq_eq_false_iff_ne]
  refine ⟨⟨⟨?_, ?_⟩, ?_⟩, ?_⟩
  all_goals
    rintro rfl
    cases digit

/-- What starts like a number is read as one. -/
theorem scan?_eq_number? {first : Char} (starts : first.isDigit = true ∨ first = '-')
    (rest : List Char) : scan? (first :: rest) = number? (first :: rest) := by
  rcases starts with digit | rfl
  · rw [scan?]
    case x_1 => nofun
    all_goals
      rintro _ ⟨⟩
      cases digit
  · rfl

theorem scan?_decimal {value : Int} (above : -0x8000000000000000 ≤ value)
    (below : value < 0x10000000000000000) {rest : List Char}
    (stops : rest.head?.any continuesNumber = false) :
    scan? (decimal value ++ rest) = some (.scalar (.integer value), rest) := by
  have number : number? (decimal value ++ rest) = some (.scalar (.integer value), rest) := by
    simp only [number?, Numeral.scan?_decimal value stops, Numeral.value?_ofInteger above below,
      Option.bind_eq_bind, Option.bind_some]
    rfl
  obtain ⟨first, later, split, starts⟩ := starts_decimal value
  rw [split, List.cons_append] at number ⊢
  rw [scan?_eq_number? starts, number]

/-- A token is read back from its text, if what follows does not continue a number. -/
theorem Writes.scan? {token : Token} {written : List Char} (writes : Writes token written)
    {rest : List Char} (stops : token.isScalar = true → rest.head?.any continuesNumber = false) :
    Token.scan? (written ++ rest) = some (token, rest) := by
  cases writes with
  | arrayStart | arrayEnd | objectStart | objectEnd | colon | comma | null => rfl
  | @bool value => cases value <;> rfl
  | integer above below => exact scan?_decimal above below (stops rfl)
  | text inside =>
    rw [List.cons_append, List.cons_append, List.append_assoc, List.singleton_append, Token.scan?,
      inside.scan?, Option.map_some]
    simp only [String.ofList_toList]

/-- What a token starts with: never a blank, and nothing that could continue a number unless the
token is a number or a word itself. -/
theorem Writes.starts {token : Token} {written : List Char} (writes : Writes token written) :
    ∃ first later, written = first :: later ∧ isBlank first = false ∧
      (token.isScalar = false → continuesNumber first = false) := by
  cases writes with
  | arrayStart | arrayEnd | objectStart | objectEnd | colon | comma | text =>
    exact ⟨_, _, rfl, by decide, fun _ => by decide⟩
  | null => exact ⟨_, _, rfl, by decide, nofun⟩
  | @bool value => cases value <;> exact ⟨_, _, rfl, by decide, nofun⟩
  | @integer value =>
    obtain ⟨first, later, split, starts⟩ := starts_decimal value
    refine ⟨first, later, split, ?_, nofun⟩
    rcases starts with digit | rfl
    · exact isBlank_of_isDigit digit
    · decide

theorem isBlank_of_mem {symbol : Char} (blank : symbol ∈ [' ', '\t', '\n', '\r']) :
    isBlank symbol = true ∧ continuesNumber symbol = false := by
  simp only [List.mem_cons, List.not_mem_nil, or_false] at blank
  rcases blank with rfl | rfl | rfl | rfl <;> exact ⟨rfl, rfl⟩

/-- No number or word directly follows another. -/
def Parted : List Token → Prop
  | [] => True
  | token :: rest => (token.isScalar = true → rest.head?.any isScalar = false) ∧ Parted rest

/-- Text behind a number does not continue it if the next token is neither number nor word. -/
theorem WritesAll.stops {tokens : List Token} {text : List Char} (writes : WritesAll tokens text)
    (other : tokens.head?.any isScalar = false) : text.head?.any continuesNumber = false := by
  cases writes with
  | nil blank =>
    cases text with
    | nil => rfl
    | cons symbol text => exact (isBlank_of_mem (blank symbol List.mem_cons_self)).2
  | @cons _ _ blanks _ _ blank first _ =>
    cases blanks with
    | nil =>
      obtain ⟨symbol, later, rfl, _, unscalar⟩ := first.starts
      exact unscalar other
    | cons symbol blanks => exact (isBlank_of_mem (blank symbol List.mem_cons_self)).2

theorem all?_blanks {blanks : List Char}
    (blank : ∀ symbol ∈ blanks, symbol ∈ [' ', '\t', '\n', '\r']) (text : List Char) :
    all? (blanks ++ text) = all? text := by
  induction blanks with
  | nil => rfl
  | cons symbol blanks ih =>
    rw [List.cons_append, all?, if_pos (isBlank_of_mem (blank symbol List.mem_cons_self)).1]
    exact ih fun other member => blank other (List.mem_cons_of_mem _ member)

theorem all?_cons {symbol : Char} {text rest : List Char} {token : Token}
    (visible : isBlank symbol = false) (scanned : scan? (symbol :: text) = some (token, rest)) :
    all? (symbol :: text) = (all? rest).map (token :: ·) := by
  rw [all?, visible, if_neg Bool.false_ne_true]
  split
  · next none => cases scanned.symm.trans none
  · next found => cases scanned.symm.trans found; rfl

/-- A written sequence of tokens is split into these tokens again. -/
theorem WritesAll.all? {tokens : List Token} {text : List Char} (writes : WritesAll tokens text)
    (parted : Parted tokens) : Token.all? text = some tokens := by
  induction writes with
  | @nil blanks blank =>
    rw [← List.append_nil blanks, all?_blanks blank, Token.all?]
  | @cons token tokens blanks written rest blank first later ih =>
    -- Only a number could run on into the text behind it, and then no number or word follows.
    have scanned : Token.scan? (written ++ rest) = some (token, rest) :=
      first.scan? fun scalar => later.stops (parted.1 scalar)
    obtain ⟨symbol, others, rfl, visible, _⟩ := first.starts
    rw [List.append_assoc, all?_blanks blank]
    rw [List.cons_append] at scanned ⊢
    rw [all?_cons visible scanned, ih parted.2, Option.map_some]

end Token

/-! ## From tokens to the value -/

section Tokens
open ParseState

/-- No value starts like the end of an array. -/
theorem run_arrayOpened (value : Json) (outer : List Frame) (rest : List Token) :
    run (.arrayOpened outer) (value.tokens ++ rest) =
      run (.beforeValue (.array [] :: outer)) (value.tokens ++ rest) := by
  match value with
  | .null | .bool _ | .integer _ | .real _ | .string _ => simp only [tokens]; rfl
  | .array [] | .array (_ :: _) | .object [] | .object (_ :: _) => simp only [tokens]; rfl

mutual

/-- The tokens of a value deliver it to the innermost open container. -/
theorem run_tokens (value : Json) (outer : List Frame) (rest : List Token)
    (fits : outer.length + value.depth ≤ maxDepth) :
    run (.beforeValue outer) (value.tokens ++ rest) = run (deliver value outer) rest := by
  match value with
  | .null | .bool _ | .integer _ | .real _ | .string _ =>
    simp only [tokens, List.singleton_append, run, step, startValue, Option.bind_some]
  | .array [] =>
    simp only [depth, elementDepth] at fits
    have room : outer.length < maxDepth := by omega
    simp only [tokens, List.cons_append, List.nil_append, run, step, startValue, openInside, room,
      if_true, Option.bind_some]
  | .array (first :: others) =>
    simp only [depth, elementDepth] at fits
    have room : outer.length < maxDepth := by omega
    have inside : (Frame.array [] :: outer).length + first.depth ≤ maxDepth := by
      rw [List.length_cons]
      omega
    simp only [tokens, List.cons_append, List.append_assoc, run, step, startValue, openInside, room,
      if_true, Option.bind_some]
    -- The first element is read inside the new array, which the further tokens then continue.
    rw [run_arrayOpened, run_tokens first _ _ inside, deliver,
      run_furtherElements others _ outer rest (by omega)]
    rfl
  | .object [] =>
    simp only [depth, memberDepth] at fits
    have room : outer.length < maxDepth := by omega
    simp only [tokens, List.cons_append, List.nil_append, run, step, startValue, openInside, room,
      if_true, Option.bind_some]
  | .object ((key, inner) :: others) =>
    simp only [depth, memberDepth] at fits
    have room : outer.length < maxDepth := by omega
    have inside : (Frame.object [] key :: outer).length + inner.depth ≤ maxDepth := by
      rw [List.length_cons]
      omega
    simp only [tokens, List.cons_append, List.append_assoc, run, step, startValue, openInside, room,
      if_true, Option.bind_some]
    rw [run_tokens inner _ _ inside, deliver, run_furtherMembers others _ outer rest (by omega)]
    rfl

theorem run_furtherElements (elements done : List Json) (outer : List Frame) (rest : List Token)
    (fits : outer.length + (elementDepth elements + 1) ≤ maxDepth) :
    run (.afterElement done outer) (furtherElements elements ++ rest) =
      run (deliver (.array (done.reverse ++ elements)) outer) rest := by
  match elements with
  | [] =>
    simp only [furtherElements, List.singleton_append, run, step, Option.bind_some, List.append_nil]
  | element :: others =>
    simp only [elementDepth] at fits
    have inside : (Frame.array done :: outer).length + element.depth ≤ maxDepth := by
      rw [List.length_cons]
      omega
    simp only [furtherElements, List.cons_append, List.append_assoc, run, step, Option.bind_some]
    rw [run_tokens element _ _ inside, deliver, run_furtherElements others _ outer rest (by omega),
      List.reverse_cons, List.append_assoc, List.singleton_append]

theorem run_furtherMembers (members done : List (String × Json)) (outer : List Frame)
    (rest : List Token) (fits : outer.length + (memberDepth members + 1) ≤ maxDepth) :
    run (.afterMember done outer) (furtherMembers members ++ rest) =
      run (deliver (.object (done.reverse ++ members)) outer) rest := by
  match members with
  | [] =>
    simp only [furtherMembers, List.singleton_append, run, step, Option.bind_some, List.append_nil]
  | (key, inner) :: others =>
    simp only [memberDepth] at fits
    have inside : (Frame.object done key :: outer).length + inner.depth ≤ maxDepth := by
      rw [List.length_cons]
      omega
    simp only [furtherMembers, List.cons_append, List.append_assoc, run, step, Option.bind_some]
    rw [run_tokens inner _ _ inside, deliver, run_furtherMembers others _ outer rest (by omega),
      List.reverse_cons, List.append_assoc, List.singleton_append]

end

/-! Scalars never stand side by side in the tokens of a value. -/

theorem any_furtherElements (elements : List Json) (rest : List Token) :
    (furtherElements elements ++ rest).head?.any Token.isScalar = false := by
  cases elements <;> simp only [furtherElements] <;> rfl

theorem any_furtherMembers (members : List (String × Json)) (rest : List Token) :
    (furtherMembers members ++ rest).head?.any Token.isScalar = false := by
  match members with
  | [] | _ :: _ => simp only [furtherMembers]; rfl

mutual

theorem parted_tokens (value : Json) {rest : List Token}
    (other : rest.head?.any Token.isScalar = false) (parted : Token.Parted rest) :
    Token.Parted (value.tokens ++ rest) := by
  match value with
  | .null | .bool _ | .integer _ | .real _ | .string _ =>
    simp only [tokens]
    exact ⟨fun _ => other, parted⟩
  | .array [] | .object [] =>
    simp only [tokens]
    exact ⟨nofun, nofun, parted⟩
  | .array (first :: others) =>
    simp only [tokens, List.cons_append, List.append_assoc]
    exact ⟨nofun, parted_tokens first (any_furtherElements others rest)
      (parted_furtherElements others parted)⟩
  | .object ((key, inner) :: others) =>
    simp only [tokens, List.cons_append, List.append_assoc]
    exact ⟨nofun, nofun, nofun, parted_tokens inner (any_furtherMembers others rest)
      (parted_furtherMembers others parted)⟩

theorem parted_furtherElements (elements : List Json) {rest : List Token}
    (parted : Token.Parted rest) : Token.Parted (furtherElements elements ++ rest) := by
  match elements with
  | [] =>
    simp only [furtherElements]
    exact ⟨nofun, parted⟩
  | element :: others =>
    simp only [furtherElements, List.cons_append, List.append_assoc]
    exact ⟨nofun, parted_tokens element (any_furtherElements others rest)
      (parted_furtherElements others parted)⟩

theorem parted_furtherMembers (members : List (String × Json)) {rest : List Token}
    (parted : Token.Parted rest) : Token.Parted (furtherMembers members ++ rest) := by
  match members with
  | [] =>
    simp only [furtherMembers]
    exact ⟨nofun, parted⟩
  | (key, inner) :: others =>
    simp only [furtherMembers, List.cons_append, List.append_assoc]
    exact ⟨nofun, nofun, nofun, parted_tokens inner (any_furtherMembers others rest)
      (parted_furtherMembers others parted)⟩

end

end Tokens

/-- Every text that writes a value is read as that value. -/
theorem Writes.parse? {value : Json} {text : String} (writes : value.Writes text)
    (shallow : value.depth ≤ maxDepth) : Json.parse? text = some value := by
  have parted : Token.Parted (value.tokens ++ []) := parted_tokens value rfl trivial
  rw [List.append_nil] at parted
  have split : Token.all? text.toList = some value.tokens := Token.WritesAll.all? writes parted
  have final := run_tokens value [] [] (by rwa [List.length_nil, Nat.zero_add])
  rw [List.append_nil] at final
  rw [Json.parse?, split, Option.bind_eq_bind, Option.bind_some, final]
  rfl

end DecoderGen.Json
