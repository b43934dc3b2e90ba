import DecoderGen.Proofs.PatternMeaning

/-! # Patterns ordered by covering

Covering orders patterns as their sets of inputs are ordered: patterns that cover one another are
equal, and a pattern that covers another one fixes fewer bits unless the two are equal. The common
input that is built from two patterns is the smallest of all inputs that satisfy both. Patterns of
different widths share no input, and the comparisons say so.
-/

namespace DecoderGen

/-- An input of the same width has a one wherever this one has. -/
def Input.Below (input other : Input) : Prop :=
  List.Forall₂ (fun bit otherBit => bit = true → otherBit = true) input other

/-- The number that an input is when it is read in binary. -/
def Input.value (input : Input) : Nat :=
  input.foldl (fun value bit => 2 * value + bit.toNat) 0

/-- What is smaller bit by bit is smaller as a number. -/
theorem Input.Below.value_le {input other : Input} (below : input.Below other) :
    input.value ≤ other.value := by
  -- The bits that are already read keep the order, whatever bits follow.
  suffices continued : ∀ {start otherStart : Nat}, start ≤ otherStart →
      input.foldl (fun value bit => 2 * value + bit.toNat) start ≤
        other.foldl (fun value bit => 2 * value + bit.toNat) otherStart from
    continued (Nat.le_refl 0)
  unfold Below at below
  induction below with
  | nil => exact id
  | @cons bit otherBit _ _ head _ ih =>
    intro start otherStart smaller
    have bits : bit.toNat ≤ otherBit.toNat := by
      cases bit with
      | false => exact Nat.zero_le _
      | true => exact Nat.le_of_eq (congrArg Bool.toNat (head rfl).symm)
    exact ih (Nat.add_le_add (Nat.mul_le_mul_left 2 smaller) bits)

namespace PatternBit

/-- A pattern bit covers itself, and an open one also covers the fixed ones. -/
theorem covers_eq_true_iff (left right : PatternBit) :
    left.covers right = true ↔ left = right ∨ left = .dontCare ∧ right.isFixed = true := by
  cases left <;> cases right <;> decide

/-- A bit that satisfies both pattern bits is one where either of them asks for a one. -/
theorem eq_true_of_asked {left right : PatternBit} {bit : Bool} (first : left.accepts bit = true)
    (second : right.accepts bit = true) (asked : (left == .one || right == .one) = true) :
    bit = true := by
  rw [Bool.or_eq_true, beq_iff_eq, beq_iff_eq] at asked
  rcases asked with rfl | rfl
  · exact first
  · exact second

end PatternBit

namespace Pattern

theorem relates_iff_forall₂ (related : PatternBit → PatternBit → Bool)
    (left right : List PatternBit) :
    relates related left right = true ↔
      List.Forall₂ (fun first second => related first second = true) left right := by
  induction left generalizing right with
  | nil => cases right <;> simp [relates]
  | cons first lefts ih =>
    cases right with
    | nil => simp [relates]
    | cons second rights => simp [relates, ih]

/-- Each open bit over a fixed one widens the gap between the numbers of fixed bits, so the numbers
only agree if there is none. -/
theorem countP_isFixed_of_covers {left right : List PatternBit}
    (covering : List.Forall₂ (fun first second => first.covers second = true) left right) :
    left.countP PatternBit.isFixed ≤ right.countP PatternBit.isFixed ∧
      (left.countP PatternBit.isFixed = right.countP PatternBit.isFixed → left = right) := by
  induction covering with
  | nil => exact ⟨Nat.le_refl _, fun _ => rfl⟩
  | @cons first second lefts rights head _ ih =>
    obtain ⟨fewer, rigid⟩ := ih
    rw [List.countP_cons, List.countP_cons]
    rcases (PatternBit.covers_eq_true_iff first second).mp head with rfl | ⟨rfl, fixed⟩
    · exact ⟨by omega, fun same => by rw [rigid (by omega)]⟩
    · rw [if_neg (by decide), if_pos fixed]
      exact ⟨by omega, fun same => by omega⟩

/-- A pattern that covers another one fixes no more bits, and fewer unless the two are equal. -/
theorem fixedBits_of_covers {left right : Pattern} (covering : left.covers right = true) :
    left.fixedBits ≤ right.fixedBits ∧ (left.fixedBits = right.fixedBits → left = right) := by
  obtain ⟨fewer, rigid⟩ := countP_isFixed_of_covers ((relates_iff_forall₂ _ _ _).mp covering)
  exact ⟨fewer, fun same => congrArg Pattern.mk (rigid same)⟩

/-- Patterns that cover one another are equal: neither fixes more bits. -/
theorem covers_antisymm {left right : Pattern} (covering : left.covers right = true)
    (covered : right.covers left = true) : left = right := by
  obtain ⟨fewer, rigid⟩ := fixedBits_of_covers covering
  exact rigid (Nat.le_antisymm fewer (fixedBits_of_covers covered).1)

theorem covers_refl (pattern : Pattern) : pattern.covers pattern = true :=
  (covers_iff_forall_input pattern pattern).mpr fun _ => id

/-- A pattern is known by the inputs it accepts. -/
theorem eq_iff_accepts_eq (left right : Pattern) :
    left = right ↔ ∀ input, left.accepts input = right.accepts input := by
  refine ⟨fun same input => same ▸ rfl, fun alike => covers_antisymm ?_ ?_⟩
  · exact (covers_iff_forall_input left right).mpr fun input accepted =>
      (alike input).trans accepted
  · exact (covers_iff_forall_input right left).mpr fun input accepted =>
      (alike input).symm.trans accepted

theorem commonBits_below {left right : List PatternBit} {other : Input}
    (first : acceptsBits left other = true) (second : acceptsBits right other = true) :
    Input.Below (commonBits left right) other := by
  rw [acceptsBits_iff_forall₂] at first second
  induction first generalizing right with
  | nil => exact List.Forall₂.nil
  | cons head _ ih =>
    cases second with
    | cons otherHead tail =>
      exact List.Forall₂.cons (PatternBit.eq_true_of_asked head otherHead) (ih tail)

theorem commonInput?_eq_some_iff (left right : Pattern) (input : Input) :
    left.commonInput? right = some input ↔
      left.overlaps right = true ∧ commonBits left.bits right.bits = input := by
  unfold commonInput?
  split
  · next overlapping => simp [overlapping]
  · next disjoint => simp [disjoint]

/-- Comparing two patterns symbol by symbol is exact for the sets of inputs they accept, whatever
their widths: overlaps, covering and equality are those of the sets; a common input is found exactly
if there is one, and is then the smallest of them, bit by bit and as a number; and what covers fixes
fewer bits or is equal. -/
theorem comparisons_exact (left right : Pattern) :
    (left.overlaps right = true ↔
      ∃ input, left.accepts input = true ∧ right.accepts input = true) ∧
    (left.covers right = true ↔
      ∀ input, right.accepts input = true → left.accepts input = true) ∧
    (left = right ↔ ∀ input, left.accepts input = right.accepts input) ∧
    (left = right ↔ left.covers right = true ∧ right.covers left = true) ∧
    ((left.commonInput? right).isSome = true ↔ left.overlaps right = true) ∧
    (∀ input, left.commonInput? right = some input →
      left.accepts input = true ∧ right.accepts input = true ∧
      ∀ other, left.accepts other = true → right.accepts other = true →
        input.Below other ∧ input.value ≤ other.value) ∧
    (left.covers right = true →
      left.fixedBits ≤ right.fixedBits ∧ (left.fixedBits = right.fixedBits → left = right)) := by
  refine ⟨overlaps_iff_exists_input left right, covers_iff_forall_input left right,
    eq_iff_accepts_eq left right, ⟨?_, ?_⟩, ?_, ?_, fixedBits_of_covers⟩
  · rintro rfl
    exact ⟨left.covers_refl, left.covers_refl⟩
  · rintro ⟨covering, covered⟩
    exact covers_antisymm covering covered
  · simp [Option.isSome_iff_exists, commonInput?_eq_some_iff]
  · rintro input found
    obtain ⟨overlapping, rfl⟩ := (commonInput?_eq_some_iff left right input).mp found
    obtain ⟨first, second⟩ := (overlaps_iff_accepts_commonBits left right).mp overlapping
    refine ⟨first, second, fun other firstOther secondOther => ?_⟩
    have below := commonBits_below firstOther secondOther
    exact ⟨below, below.value_le⟩

/-- The pattern `..0`. -/
def evens : Pattern := ⟨[.dontCare, .dontCare, .zero]⟩

/-- The pattern `1.0`. -/
def highEvens : Pattern := ⟨[.one, .dontCare, .zero]⟩

/-- The smallest input that `..0` and `1.0` share is `100`, and the first covers the second with one
fixed bit instead of two. -/
theorem evens_over_highEvens :
    evens.commonInput? highEvens = some [true, false, false] ∧
    (∀ other, evens.accepts other = true → highEvens.accepts other = true →
      Input.Below [true, false, false] other ∧ 4 ≤ Input.value other) ∧
    evens.covers highEvens = true ∧ evens ≠ highEvens ∧
    evens.fixedBits ≤ highEvens.fixedBits ∧ evens.fixedBits ≠ highEvens.fixedBits := by
  have common : evens.commonInput? highEvens = some [true, false, false] := by decide
  have covering : evens.covers highEvens = true := by decide
  have different : evens ≠ highEvens := by decide
  obtain ⟨_, _, _, _, _, smallest, fixed⟩ := comparisons_exact evens highEvens
  obtain ⟨fewer, rigid⟩ := fixed covering
  exact ⟨common, (smallest _ common).2.2, covering, different, fewer,
    fun same => different (rigid same)⟩

end Pattern
end DecoderGen
