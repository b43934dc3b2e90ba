import DecoderGen.Input

/-! # Bit patterns

A pattern fixes some bits of an input and leaves the others open. It is written with one symbol
per bit, most significant first: `0`, `1`, or `.` for an open bit. Reading a pattern collects every
illegal symbol with its position instead of stopping at the first one.

A pattern only ever accepts inputs of its own width; overlap and covering are decided symbol by
symbol under the same rule.
-/

namespace DecoderGen

/-- What a pattern asks of one input bit. -/
inductive PatternBit where
  | zero
  | one
  | dontCare
deriving DecidableEq, Repr

namespace PatternBit

/-- The pattern bit a source symbol stands for. -/
def ofSymbol? : Char → Option PatternBit
  | '0' => some .zero
  | '1' => some .one
  | '.' => some .dontCare
  | _ => none

/-- The source symbol of a pattern bit. -/
def symbol : PatternBit → Char
  | .zero => '0'
  | .one => '1'
  | .dontCare => '.'

/-- The symbol of a pattern bit in a `casez` literal, where an open bit is `?`. -/
def casezSymbol : PatternBit → Char
  | .zero => '0'
  | .one => '1'
  | .dontCare => '?'

/-- Whether an input bit satisfies a pattern bit. -/
def accepts : PatternBit → Bool → Bool
  | .zero, bit => !bit
  | .one, bit => bit
  | .dontCare, _ => true

/-- Whether some input bit satisfies both pattern bits. -/
def overlaps : PatternBit → PatternBit → Bool
  | .dontCare, _ => true
  | _, .dontCare => true
  | left, right => left == right

/-- Whether every input bit that satisfies the second pattern bit satisfies the first. -/
def covers : PatternBit → PatternBit → Bool
  | .dontCare, _ => true
  | left, right => left == right

/-- Whether the pattern bit asks for a particular input bit. -/
def isFixed : PatternBit → Bool
  | .dontCare => false
  | _ => true

@[simp] theorem ofSymbol?_symbol (bit : PatternBit) : ofSymbol? bit.symbol = some bit := by
  cases bit <;> rfl

/-- A symbol is legal exactly when it is the symbol of the pattern bit it is read as. -/
theorem ofSymbol?_eq_some_iff {symbol : Char} {bit : PatternBit} :
    ofSymbol? symbol = some bit ↔ symbol = bit.symbol := by
  constructor
  · intro read
    unfold ofSymbol? at read
    split at read <;> cases read <;> rfl
  · rintro rfl
    exact ofSymbol?_symbol bit

end PatternBit

/-- An illegal symbol of a written pattern, at its distance from the most significant end. -/
structure BadSymbol where
  position : Nat
  symbol : Char
deriving DecidableEq, Repr

/-- One requirement per input bit, most significant first. -/
structure Pattern where
  bits : List PatternBit
deriving DecidableEq, Repr

namespace Pattern

/-- The illegal symbols of a written pattern in order, the first symbol being at `start`. -/
def badSymbols (start : Nat) : List Char → List BadSymbol
  | [] => []
  | symbol :: rest =>
    match PatternBit.ofSymbol? symbol with
    | some _ => badSymbols (start + 1) rest
    | none => ⟨start, symbol⟩ :: badSymbols (start + 1) rest

/-- The pattern of the legal symbols among the given ones. -/
def ofSymbols (symbols : List Char) : Pattern := ⟨symbols.filterMap PatternBit.ofSymbol?⟩

/-- Read a written pattern, or list all of its illegal symbols. -/
def parse (text : String) : Except (List BadSymbol) Pattern :=
  match badSymbols 0 text.toList with
  | [] => .ok (ofSymbols text.toList)
  | bad => .error bad

/-- The source text of a pattern. -/
def text (pattern : Pattern) : String := String.ofList (pattern.bits.map PatternBit.symbol)

/-- The digits of a pattern in a `casez` literal. -/
def casez (pattern : Pattern) : String := String.ofList (pattern.bits.map PatternBit.casezSymbol)

/-- The number of input bits a pattern speaks about. -/
def width (pattern : Pattern) : Nat := pattern.bits.length

/-- The number of input bits a pattern fixes. -/
def fixedBits (pattern : Pattern) : Nat := pattern.bits.countP PatternBit.isFixed

/-- Bit by bit acceptance; lists of different lengths never agree. -/
def acceptsBits : List PatternBit → List Bool → Bool
  | [], [] => true
  | required :: pattern, bit :: input => required.accepts bit && acceptsBits pattern input
  | _, _ => false

/-- Whether an input is as wide as the pattern and satisfies each of its bits. -/
def accepts (pattern : Pattern) (input : Input) : Bool := acceptsBits pattern.bits input

/-- A relation between pattern bits, asked of two patterns of one width bit by bit. -/
def relates (related : PatternBit → PatternBit → Bool) : List PatternBit → List PatternBit → Bool
  | [], [] => true
  | left :: lefts, right :: rights => related left right && relates related lefts rights
  | _, _ => false

/-- Whether some input satisfies both patterns. -/
def overlaps (left right : Pattern) : Bool := relates PatternBit.overlaps left.bits right.bits

/-- Whether every input that satisfies the second pattern satisfies the first. -/
def covers (left right : Pattern) : Bool := relates PatternBit.covers left.bits right.bits

/-- The input that has a one exactly where one of the two patterns asks for it. -/
def commonBits (left right : List PatternBit) : Input :=
  List.zipWith (fun a b => a == .one || b == .one) left right

/-- The smallest input that satisfies both patterns, if there is any. -/
def commonInput? (left right : Pattern) : Option Input :=
  if left.overlaps right then some (commonBits left.bits right.bits) else none

@[simp] theorem text_toList (pattern : Pattern) :
    pattern.text.toList = pattern.bits.map PatternBit.symbol := String.toList_ofList

theorem badSymbols_map_symbol (start : Nat) (bits : List PatternBit) :
    badSymbols start (bits.map PatternBit.symbol) = [] := by
  induction bits generalizing start with
  | nil => rfl
  | cons bit rest ih => simp [badSymbols, ih]

/-- A written pattern without illegal symbols is the text of the bits read from it. -/
theorem map_symbol_of_badSymbols_eq_nil {start : Nat} {symbols : List Char}
    (clean : badSymbols start symbols = []) :
    (ofSymbols symbols).bits.map PatternBit.symbol = symbols := by
  induction symbols generalizing start with
  | nil => rfl
  | cons symbol rest ih =>
    rw [badSymbols] at clean
    split at clean
    · next bit read =>
      have tail := ih clean
      rw [ofSymbols] at tail ⊢
      rw [List.filterMap_cons_some read, List.map_cons, tail,
        ← PatternBit.ofSymbol?_eq_some_iff.mp read]
    · cases clean

end Pattern
end DecoderGen
