/-! # Decoder inputs

An input is its bits from the most significant to the least. Written inputs may group their
digits with underscores; the canonical text has none.
-/

namespace DecoderGen

/-- The bits of one decoder input, most significant first. -/
abbrev Input := List Bool

namespace Input

/-- The bit a binary digit stands for. -/
def bit? : Char → Option Bool
  | '0' => some false
  | '1' => some true
  | _ => none

/-- The digit of a bit. -/
def digit (bit : Bool) : Char := if bit then '1' else '0'

/-- The digits in order as bits; any other character refuses the whole text. -/
def ofDigits? : List Char → Option Input
  | [] => some []
  | symbol :: rest => do return (← bit? symbol) :: (← ofDigits? rest)

/-- Read a written input. Underscores separate digits and stand for nothing. -/
def parse? (text : String) : Option Input :=
  ofDigits? (text.toList.filter (· ≠ '_'))

/-- The digits of an input without separators. -/
def text (input : Input) : String := String.ofList (input.map digit)

@[simp] theorem bit?_digit (bit : Bool) : bit? (digit bit) = some bit := by cases bit <;> rfl

theorem ofDigits?_map_digit (input : Input) : ofDigits? (input.map digit) = some input := by
  induction input with
  | nil => rfl
  | cons bit rest ih => simp [ofDigits?, ih]

end Input
end DecoderGen
