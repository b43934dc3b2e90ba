/-! # The shortest decimal of a binary floating-point number

A finite binary64 value stands for every real number that rounds to it. Among the decimals in that
interval the one with the fewest digits is chosen, and among those the nearest to the value; of two
equally near ones the one with an even last digit. All comparisons are exact, on natural numbers.
-/

namespace DecoderGen.Decimal

/-- A finite non-negative binary64 value, `significand * 2 ^ exponent`. -/
structure Binary where
  significand : Nat
  exponent : Int
  /-- The value below is half as far away as the value above. -/
  narrowBelow : Bool
deriving DecidableEq, Repr

/-- The magnitude held by the bits of a finite value. -/
def Binary.ofBits (bits : UInt64) : Binary :=
  let biased := ((bits >>> 52) &&& 0x7FF).toNat
  let fraction := (bits &&& 0xFFFFFFFFFFFFF).toNat
  if biased = 0 then ⟨fraction, -1074, false⟩
  else ⟨0x10000000000000 + fraction, biased - 1075, fraction == 0 && biased > 1⟩

/-- A decimal `digits * 10 ^ exponent`. -/
structure Scaled where
  digits : Nat
  exponent : Int
deriving DecidableEq, Repr

/-- A power of a natural base. A negative exponent counts as zero: its factor stands on the other side
of a comparison. -/
def power (base : Nat) (exponent : Int) : Nat := Nat.pow base exponent.toNat

/-- Compare `left * 10 ^ tens` with `right * 2 ^ twos`. -/
def compareScaled (left : Nat) (tens : Int) (right : Nat) (twos : Int) : Ordering :=
  compare (left * power 10 tens * power 2 (-twos)) (right * power 2 twos * power 10 (-tens))

namespace Binary

/-- Whether a decimal lies among the real numbers that round to the value. The ends of that interval
belong to it exactly when the significand is even. -/
def standsFor (value : Binary) (decimal : Scaled) : Bool :=
  let low := if value.narrowBelow then 4 * value.significand - 1 else 4 * value.significand - 2
  let high := 4 * value.significand + 2
  let inclusive := value.significand % 2 == 0
  let fromLow := compareScaled decimal.digits decimal.exponent low (value.exponent - 2)
  let fromHigh := compareScaled decimal.digits decimal.exponent high (value.exponent - 2)
  (fromLow == .gt || (inclusive && fromLow == .eq)) &&
    (fromHigh == .lt || (inclusive && fromHigh == .eq))

/-- The value as a fraction of naturals, in units of `10 ^ tens`. -/
def ratio (value : Binary) (tens : Int) : Nat × Nat :=
  (value.significand * power 2 value.exponent * power 10 (-tens),
    power 2 (-value.exponent) * power 10 tens)

/-- The better of the value's two neighbours among the multiples of `10 ^ tens` that round to it. -/
def neighbour? (value : Binary) (tens : Int) : Option Scaled :=
  let (numerator, denominator) := value.ratio tens
  let below : Scaled := ⟨numerator / denominator, tens⟩
  let above : Scaled := ⟨numerator / denominator + 1, tens⟩
  match value.standsFor below && below.digits != 0, value.standsFor above with
  | false, false => none
  | true, false => some below
  | false, true => some above
  | true, true =>
    match compare (2 * (numerator % denominator)) denominator with
    | .lt => some below
    | .gt => some above
    | .eq => some (if below.digits % 2 = 0 then below else above)

/-- The exponents of the decimal grids to try, coarsest first, for a value of at most 309 digits
before the point and 324 places after it. -/
def grids : List Int := (List.range 660).map fun step : Nat => 310 - (step : Int)

/-- The shortest decimal of a positive value; its exact decimal if no grid has one. -/
def shortest (value : Binary) : Scaled :=
  match grids.findSome? value.neighbour? with
  | some decimal => decimal
  | none => ⟨value.significand * power 2 value.exponent * power 5 (-value.exponent),
      min value.exponent 0⟩

end Binary
end DecoderGen.Decimal
