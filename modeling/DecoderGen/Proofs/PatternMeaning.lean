import DecoderGen.Resolved
import Mathlib.Data.List.Forall2

/-! # The inputs a pattern stands for

A written pattern is read without parsing it: it agrees with an input of its own length symbol by
symbol. Parsed patterns accept the inputs their text agrees with. The comparison of two patterns
symbol by symbol finds an overlap exactly when some input satisfies both, and finds that one covers
the other exactly when it accepts every input of the other.
-/

namespace DecoderGen

/-- Whether a written symbol agrees with an input bit. -/
def SymbolAdmits (symbol : Char) (bit : Bool) : Prop :=
  symbol = '.' ∨ (symbol = '0' ∧ bit = false) ∨ (symbol = '1' ∧ bit = true)

instance (symbol : Char) (bit : Bool) : Decidable (SymbolAdmits symbol bit) :=
  inferInstanceAs (Decidable (_ ∨ _))

/-- Whether the written pattern of a rule agrees with an input, symbol by symbol. -/
def Rule.Matches (rule : Rule) (input : Input) : Prop :=
  List.Forall₂ SymbolAdmits rule.pattern.toList input

instance (rule : Rule) (input : Input) : Decidable (rule.Matches input) :=
  inferInstanceAs (Decidable (List.Forall₂ _ _ _))

namespace PatternBit

theorem accepts_iff_symbolAdmits (required : PatternBit) (bit : Bool) :
    required.accepts bit = true ↔ SymbolAdmits required.symbol bit := by
  cases required <;> cases bit <;> decide

/-- Two pattern bits overlap when the bit that is one where either asks for it satisfies both. -/
theorem overlaps_iff_accepts (left right : PatternBit) :
    left.overlaps right = true ↔
      left.accepts (left == .one || right == .one) = true ∧
        right.accepts (left == .one || right == .one) = true := by
  cases left <;> cases right <;> decide

theorem overlaps_of_accepts {left right : PatternBit} {bit : Bool}
    (first : left.accepts bit = true) (second : right.accepts bit = true) :
    left.overlaps right = true := by
  cases left <;> cases right <;> cases bit <;> simp_all [accepts, overlaps]

theorem covers_iff_accepts (left right : PatternBit) :
    left.covers right = true ↔ ∀ bit, right.accepts bit = true → left.accepts bit = true := by
  cases left <;> cases right <;> decide

@[simp] theorem accepts_beq_one (required : PatternBit) :
    required.accepts (required == .one) = true := by
  cases required <;> rfl

end PatternBit

namespace Pattern

theorem acceptsBits_iff_forall₂ (bits : List PatternBit) (input : Input) :
    acceptsBits bits input = true ↔
      List.Forall₂ (fun required bit => required.accepts bit = true) bits input := by
  induction bits generalizing input with
  | nil => cases input <;> simp [acceptsBits]
  | cons required rest ih =>
    cases input with
    | nil => simp [acceptsBits]
    | cons bit input => simp [acceptsBits, ih]

/-- A pattern accepts exactly the inputs that its text agrees with. -/
theorem accepts_iff_forall₂_symbol (pattern : Pattern) (input : Input) :
    pattern.accepts input = true ↔
      List.Forall₂ SymbolAdmits (pattern.bits.map PatternBit.symbol) input := by
  rw [accepts, acceptsBits_iff_forall₂, List.forall₂_map_left_iff]
  simp only [PatternBit.accepts_iff_symbolAdmits]

theorem relates_overlaps_iff (left right : List PatternBit) :
    relates PatternBit.overlaps left right = true ↔
      acceptsBits left (commonBits left right) = true ∧
        acceptsBits right (commonBits left right) = true := by
  induction left generalizing right with
  | nil => cases right <;> simp [relates, commonBits, acceptsBits]
  | cons first lefts ih =>
    cases right with
    | nil => simp [relates, commonBits, acceptsBits]
    | cons second rights =>
      have tail := ih rights
      rw [commonBits] at tail ⊢
      simp only [relates, List.zipWith_cons_cons, acceptsBits, Bool.and_eq_true, tail,
        PatternBit.overlaps_iff_accepts first second]
      tauto

/-- Overlapping patterns both accept the input with a one where either asks for it. -/
theorem overlaps_iff_accepts_commonBits (left right : Pattern) :
    left.overlaps right = true ↔
      left.accepts (commonBits left.bits right.bits) = true ∧
        right.accepts (commonBits left.bits right.bits) = true :=
  relates_overlaps_iff left.bits right.bits

theorem relates_overlaps_of_accepts {left right : List PatternBit} {input : Input}
    (first : acceptsBits left input = true) (second : acceptsBits right input = true) :
    relates PatternBit.overlaps left right = true := by
  rw [acceptsBits_iff_forall₂] at first second
  induction first generalizing right with
  | nil =>
    cases second
    rfl
  | cons head _ ih =>
    cases second with
    | cons other tail =>
      rw [relates, ih tail, PatternBit.overlaps_of_accepts head other]
      rfl

/-- Comparing symbols finds an overlap exactly when some input satisfies both patterns. -/
theorem overlaps_iff_exists_input (left right : Pattern) :
    left.overlaps right = true ↔
      ∃ input, left.accepts input = true ∧ right.accepts input = true := by
  constructor
  · intro overlapping
    exact ⟨_, (overlaps_iff_accepts_commonBits left right).mp overlapping⟩
  · rintro ⟨input, first, second⟩
    exact relates_overlaps_of_accepts first second

/-- Every pattern accepts some input. -/
theorem exists_acceptsBits (bits : List PatternBit) : ∃ input, acceptsBits bits input = true := by
  induction bits with
  | nil => exact ⟨[], rfl⟩
  | cons required rest ih =>
    obtain ⟨input, accepted⟩ := ih
    exact ⟨(required == .one) :: input, by simp [acceptsBits, accepted]⟩

theorem relates_covers_iff (left right : List PatternBit) :
    relates PatternBit.covers left right = true ↔
      ∀ input, acceptsBits right input = true → acceptsBits left input = true := by
  induction left generalizing right with
  | nil =>
    cases right with
    | nil => simp [relates]
    | cons second rights =>
      refine iff_of_false (by simp [relates]) fun covering => ?_
      obtain ⟨input, accepted⟩ := exists_acceptsBits (second :: rights)
      have empty := covering input accepted
      cases input <;> simp [acceptsBits] at accepted empty
  | cons first lefts ih =>
    cases right with
    | nil => exact iff_of_false (by simp [relates]) fun covering => by cases covering [] rfl
    | cons second rights =>
      simp only [relates, Bool.and_eq_true, ih, PatternBit.covers_iff_accepts]
      constructor
      · rintro ⟨head, tail⟩ input accepted
        cases input with
        | nil => cases accepted
        | cons bit input =>
          simp only [acceptsBits, Bool.and_eq_true] at accepted ⊢
          exact ⟨head bit accepted.1, tail input accepted.2⟩
      · intro covering
        -- What one side is compared on is completed by any input that satisfies the other side.
        have combined : ∀ bit input, second.accepts bit = true → acceptsBits rights input = true →
            first.accepts bit = true ∧ acceptsBits lefts input = true := by
          intro bit input head tail
          simpa [acceptsBits] using covering (bit :: input) (by simp [acceptsBits, head, tail])
        obtain ⟨sample, sampled⟩ := exists_acceptsBits rights
        exact ⟨fun bit head => (combined bit sample head sampled).1,
          fun input tail => (combined _ input second.accepts_beq_one tail).2⟩

/-- Comparing symbols finds a covering exactly when every input of the second pattern is one of the
first. -/
theorem covers_iff_forall_input (left right : Pattern) :
    left.covers right = true ↔
      ∀ input, right.accepts input = true → left.accepts input = true :=
  relates_covers_iff left.bits right.bits

/-- Without illegal symbols the symbols are read one by one. -/
theorem parse_eq_ok_of_clean {text : String} (clean : badSymbols 0 text.toList = []) :
    parse text = .ok (ofSymbols text.toList) := by
  rw [parse, clean]

end Pattern

/-- The pattern read from a rule without illegal symbols accepts the inputs the rule matches. -/
theorem Rule.resolve_accepts_iff {schema : Schema} {rule : Rule} (position : Nat) (input : Input)
    (clean : Pattern.badSymbols 0 rule.pattern.toList = []) :
    (rule.resolve schema position).pattern.accepts input = true ↔ rule.Matches input := by
  rw [Pattern.accepts_iff_forall₂_symbol, Rule.Matches, Rule.resolve,
    Pattern.map_symbol_of_badSymbols_eq_nil clean]

end DecoderGen
