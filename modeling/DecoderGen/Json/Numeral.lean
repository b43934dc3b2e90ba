import DecoderGen.Json

/-! # JSON number literals

A literal is split into its parts by the grammar alone. Its value is then computed with a 64-bit
significand: digits that no longer fit are dropped, and count towards the exponent where they stand
before the point. The significand is scaled by one multiplication with, or division by, a power of
ten. The result may differ in its last digit from the value nearest to the literal.
-/

namespace DecoderGen.Json

/-- The parts of a number literal. -/
structure Numeral where
  negative : Bool
  whole : List Char
  fraction : Option (List Char)
  exponent : Option (Bool × List Char)
deriving DecidableEq, Repr

namespace Numeral

/-- The value of a decimal digit. -/
def digitValue (digit : Char) : Nat := digit.toNat - '0'.toNat

/-- The number written by decimal digits. -/
def natural (digits : List Char) : Nat :=
  digits.foldl (fun value digit => value * 10 + digitValue digit) 0

/-- Split off the leading decimal digits, of which there has to be one at least. -/
def digits? (text : List Char) : Option (List Char × List Char) :=
  match text.takeWhile Char.isDigit with
  | [] => none
  | digits => some (digits, text.dropWhile Char.isDigit)

/-- The digits before the point: a single zero, or digits that start with another one. -/
def whole? (text : List Char) : Option (List Char × List Char) := do
  let (digits, rest) ← digits? text
  if digits.head? = some '0' ∧ digits.length ≠ 1 then none else some (digits, rest)

/-- The fraction of a literal, if a point follows. -/
def fraction? : List Char → Option (Option (List Char) × List Char)
  | '.' :: text => (digits? text).map fun (digits, rest) => (some digits, rest)
  | text => some (none, text)

/-- The exponent after its mark, with whether it is negative. -/
def exponentDigits? : List Char → Option (Option (Bool × List Char) × List Char)
  | '-' :: text => (digits? text).map fun (digits, rest) => (some (true, digits), rest)
  | '+' :: text => (digits? text).map fun (digits, rest) => (some (false, digits), rest)
  | text => (digits? text).map fun (digits, rest) => (some (false, digits), rest)

/-- The exponent of a literal, if its mark follows. -/
def exponent? : List Char → Option (Option (Bool × List Char) × List Char)
  | 'e' :: text => exponentDigits? text
  | 'E' :: text => exponentDigits? text
  | text => some (none, text)

/-- Split the sign off a literal. -/
def sign : List Char → Bool × List Char
  | '-' :: text => (true, text)
  | text => (false, text)

/-- Read one literal from the start of a text. -/
def scan? (text : List Char) : Option (Numeral × List Char) := do
  let (negative, text) := sign text
  let (whole, text) ← whole? text
  let (fraction, text) ← fraction? text
  let (exponent, text) ← exponent? text
  return (⟨negative, whole, fraction, exponent⟩, text)

theorem digits?_length {text digits rest : List Char} (read : digits? text = some (digits, rest)) :
    rest.length < text.length := by
  have parts := congrArg List.length (List.takeWhile_append_dropWhile (p := Char.isDigit) (l := text))
  rw [List.length_append] at parts
  unfold digits? at read
  split at read
  · cases read
  · next nonempty =>
    obtain ⟨rfl, rfl⟩ := Prod.mk.inj (Option.some.inj read)
    have positive := List.length_pos_iff.mpr nonempty
    omega

theorem whole?_length {text digits rest : List Char} (read : whole? text = some (digits, rest)) :
    rest.length < text.length := by
  simp only [whole?, bind, Option.bind_eq_some_iff] at read
  obtain ⟨⟨found, after⟩, scanned, final⟩ := read
  split at final
  · cases final
  · cases final
    exact digits?_length scanned

theorem fraction?_length {text rest : List Char} {fraction : Option (List Char)}
    (read : fraction? text = some (fraction, rest)) : rest.length ≤ text.length := by
  unfold fraction? at read
  split at read
  · obtain ⟨⟨found, after⟩, scanned, same⟩ := Option.map_eq_some_iff.mp read
    cases same
    have shorter := digits?_length scanned
    simp only [List.length_cons]
    omega
  · cases read
    exact Nat.le_refl _

theorem exponentDigits?_length {text rest : List Char} {exponent : Option (Bool × List Char)}
    (read : exponentDigits? text = some (exponent, rest)) : rest.length ≤ text.length := by
  unfold exponentDigits? at read
  split at read
  all_goals
    obtain ⟨⟨found, after⟩, scanned, same⟩ := Option.map_eq_some_iff.mp read
    cases same
    have shorter := digits?_length scanned
    try simp only [List.length_cons]
    omega

theorem exponent?_length {text rest : List Char} {exponent : Option (Bool × List Char)}
    (read : exponent? text = some (exponent, rest)) : rest.length ≤ text.length := by
  unfold exponent? at read
  split at read
  case h_3 =>
    cases read
    exact Nat.le_refl _
  all_goals
    have shorter := exponentDigits?_length read
    simp only [List.length_cons]
    omega

theorem sign_length (text : List Char) : (sign text).2.length ≤ text.length := by
  unfold sign
  split <;> simp

/-- A literal takes at least one character. -/
theorem scan?_length {text rest : List Char} {numeral : Numeral}
    (read : scan? text = some (numeral, rest)) : rest.length < text.length := by
  simp only [scan?, bind, Option.bind_eq_some_iff] at read
  obtain ⟨⟨whole, afterWhole⟩, wholeRead, ⟨fraction, afterFraction⟩, fractionRead,
    ⟨exponent, afterExponent⟩, exponentRead, same⟩ := read
  cases same
  calc afterExponent.length
    _ ≤ afterFraction.length := exponent?_length exponentRead
    _ ≤ afterWhole.length := fraction?_length fractionRead
    _ < (sign text).2.length := whole?_length wholeRead
    _ ≤ text.length := sign_length text

/-- The largest significand, of 64 bits. -/
def maxSignificand : Nat := 0xFFFFFFFFFFFFFFFF

/-- The largest magnitude of a negative integer, of 64 bits with a sign. -/
def maxNegative : Nat := 0x8000000000000000

/-- Append digits to a significand while they fit; also how many were appended. -/
def accumulate (significand : Nat) : List Char → Nat × Nat
  | [] => (significand, 0)
  | digit :: rest =>
    let next := significand * 10 + digitValue digit
    if maxSignificand < next then (significand, 0)
    else
      let (result, count) := accumulate next rest
      (result, count + 1)

/-- The largest power of ten that scales a value in one step. -/
def maxScale : Nat := 308

/-- The floating-point power of ten. -/
def powerOfTen (exponent : Nat) : Float := Float.ofScientific 1 false exponent

/-- Divide by a power of ten, in steps where the power itself has no floating-point value. -/
def scaleDown (value : Float) (exponent : Nat) : Float :=
  if exponent ≤ maxScale then value / powerOfTen exponent
  else if value == 0 then value
  else scaleDown (value / powerOfTen maxScale) (exponent - maxScale)
termination_by exponent
decreasing_by simp only [maxScale] at *; omega

/-- Multiply by a power of ten; a result that is not finite is out of range. -/
def scaleUp? (value : Float) (exponent : Nat) : Option Float :=
  if exponent ≤ maxScale then
    let scaled := value * powerOfTen exponent
    if scaled.isInf then none else some scaled
  else if value == 0 then some value
  else none

/-- The magnitude `significand * 10 ^ exponent`, if it is in range. -/
def magnitude? (significand : Nat) (exponent : Int) : Option Float :=
  let value := significand.toUInt64.toFloat
  if 0 ≤ exponent then scaleUp? value exponent.toNat
  else some (scaleDown value exponent.natAbs)

/-- The largest exponent a literal may spell out. -/
def maxExponent : Nat := 0x7FFFFFFF

/-- The magnitude of a literal whose digits gave this significand and decimal exponent. -/
def scaledMagnitude? (significand : Nat) (shift : Int) : Option (Bool × List Char) → Option Float
  | none => magnitude? significand shift
  | some (negative, digits) =>
    let exponent := natural digits
    if maxExponent < exponent then
      if significand ≠ 0 ∧ !negative then none else some 0
    else if negative then magnitude? significand (shift - exponent)
    else magnitude? significand (shift + exponent)

/-- The floating-point value of a literal, if it is in range. -/
def real? (numeral : Numeral) : Option Float := do
  let (significand, kept) := accumulate 0 numeral.whole
  let dropped : Int := numeral.whole.length - kept
  let (significand, places) := accumulate significand (numeral.fraction.getD [])
  let magnitude ← scaledMagnitude? significand (dropped - places) numeral.exponent
  return if numeral.negative then -magnitude else magnitude

/-- The integer a literal denotes, if it has neither fraction nor exponent, fits 64 bits and is
not a negative zero. -/
def integer? (numeral : Numeral) : Option Int :=
  let magnitude := natural numeral.whole
  if numeral.fraction.isSome || numeral.exponent.isSome then none
  else if numeral.negative then
    if magnitude = 0 ∨ maxNegative < magnitude then none else some (-magnitude)
  else if maxSignificand < magnitude then none
  else some magnitude

/-- The value of a literal, if it is in range. -/
def value? (numeral : Numeral) : Option Json :=
  match numeral.integer? with
  | some value => some (.integer value)
  | none => numeral.real?.map .real

end Numeral
end DecoderGen.Json
