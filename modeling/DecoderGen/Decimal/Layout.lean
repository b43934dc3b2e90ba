import DecoderGen.Decimal.Shortest

/-! # Layout of decimal numbers

Lays out the shortest decimal of a floating-point number. A layout says for which sizes the point
is set in place; all others have a signed exponent.
-/

namespace DecoderGen.Decimal

/-- The decisions of a number format. The exponents are those of the leading digit. -/
structure Layout where
  /-- The least exponent that is written in place. -/
  plainFrom : Int
  /-- The least exponent that is no longer written in place. -/
  plainBelow : Int
deriving DecidableEq, Repr

/-- The decimal digits of a natural number. -/
def digitsOf (value : Nat) : List Char := Nat.toDigits 10 value

/-- Pad a text on the left to a width. -/
def padLeft (width : Nat) (pad : Char) (text : List Char) : List Char :=
  List.replicate (width - text.length) pad ++ text

namespace Layout

/-- Digits with the point set in place; an integral value keeps one zero after its point. -/
def plain (digits : List Char) (exponent : Int) : List Char :=
  if 0 ≤ exponent then digits ++ List.replicate exponent.toNat '0' ++ ['.', '0']
  else
    let places := exponent.natAbs
    let padded := padLeft (places + 1) '0' digits
    padded.take (padded.length - places) ++ '.' :: padded.drop (padded.length - places)

/-- The exponent of a number, always signed. -/
def writtenExponent (exponent : Int) : List Char :=
  'e' :: (if 0 ≤ exponent then '+' else '-') :: digitsOf exponent.natAbs

/-- Digits with the point after the first one, if others follow, and an exponent. -/
def scientific (digits : List Char) (leading : Int) : List Char :=
  match digits with
  | [] => []
  | [digit] => digit :: writtenExponent leading
  | first :: rest => first :: '.' :: rest ++ writtenExponent leading

/-- A decimal with its point or exponent. -/
def arrange (format : Layout) (decimal : Scaled) : List Char :=
  let digits := digitsOf decimal.digits
  let leading := decimal.exponent + digits.length - 1
  if format.plainFrom ≤ leading ∧ leading < format.plainBelow then plain digits decimal.exponent
  else scientific digits leading

/-- The text of a finite floating-point number; zero keeps its sign. -/
def render (format : Layout) (value : Float) : String :=
  let bits := value.toBits
  let magnitude := Binary.ofBits bits
  let text := if magnitude.significand = 0 then ['0', '.', '0'] else format.arrange magnitude.shortest
  String.ofList (if bits >>> 63 = 1 then '-' :: text else text)

end Layout
end DecoderGen.Decimal
