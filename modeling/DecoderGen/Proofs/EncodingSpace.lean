import DecoderGen.Proofs.NativeGuards
import DecoderGen.Proofs.StrictMode
import Mathlib.Algebra.BigOperators.Option
import Mathlib.Algebra.GroupWithZero.Nat

/-! # How the inputs are shared out

Each bit that a pattern leaves open doubles the number of inputs it accepts, so the share of a
pattern in all inputs of its width follows from the number of bits it fixes. Every input goes to one
guard or to none, in whatever table. In strict mode a rule gets all inputs that its pattern accepts;
then the shares of the enabled rules add up, and what they leave of the inputs no rule decides.
-/

namespace DecoderGen

namespace Input

/-- All inputs of a width. -/
def ofWidth : Nat → Finset Input
  | 0 => {[]}
  | width + 1 => (ofWidth width).image (false :: ·) ∪ (ofWidth width).image (true :: ·)

@[simp] theorem mem_ofWidth_iff (width : Nat) (input : Input) :
    input ∈ ofWidth width ↔ input.length = width := by
  induction width generalizing input with
  | zero => simp [ofWidth]
  | succ width ih =>
    cases input with
    | nil => simp [ofWidth]
    | cons bit rest => cases bit <;> simp [ofWidth, ih]

/-- Inputs are counted by their first bit. -/
theorem card_filter_ofWidth_succ (width : Nat) (counted : Input → Bool) :
    ((ofWidth (width + 1)).filter (counted ·)).card =
      ((ofWidth width).filter fun rest => counted (false :: rest)).card +
        ((ofWidth width).filter fun rest => counted (true :: rest)).card := by
  have apart : Disjoint (((ofWidth width).image (false :: ·)).filter (counted ·))
      (((ofWidth width).image (true :: ·)).filter (counted ·)) := by
    apply Finset.disjoint_filter_filter
    simp [Finset.disjoint_left]
  rw [ofWidth, Finset.filter_union, Finset.card_union_of_disjoint apart, Finset.filter_image,
    Finset.filter_image, Finset.card_image_of_injective _ (List.cons_injective),
    Finset.card_image_of_injective _ (List.cons_injective)]

theorem card_ofWidth (width : Nat) : (ofWidth width).card = 2 ^ width := by
  induction width with
  | zero => rfl
  | succ width ih =>
    have halves := card_filter_ofWidth_succ width fun _ => true
    simp only [Finset.filter_true] at halves
    rw [halves, ih, Nat.pow_succ, Nat.mul_two]

end Input

namespace Pattern

/-- Each open bit doubles the number of accepted inputs. -/
theorem card_acceptsBits (bits : List PatternBit) :
    ((Input.ofWidth bits.length).filter (acceptsBits bits ·)).card =
      2 ^ (bits.length - bits.countP PatternBit.isFixed) := by
  induction bits with
  | nil => rfl
  | cons required rest ih =>
    have fixed : rest.countP PatternBit.isFixed ≤ rest.length := List.countP_le_length
    rw [List.length_cons, Input.card_filter_ofWidth_succ, List.countP_cons]
    -- A fixed bit refuses one of the two halves, an open bit takes both.
    cases required with
    | zero => simpa [acceptsBits, PatternBit.accepts, PatternBit.isFixed] using ih
    | one => simpa [acceptsBits, PatternBit.accepts, PatternBit.isFixed] using ih
    | dontCare =>
      have freed : rest.length + 1 - rest.countP PatternBit.isFixed =
          rest.length - rest.countP PatternBit.isFixed + 1 := by omega
      simp [acceptsBits, PatternBit.accepts, PatternBit.isFixed, ih, freed, Nat.pow_succ,
        Nat.mul_two]

/-- The number of inputs that a pattern accepts. -/
theorem card_accepts (pattern : Pattern) :
    ((Input.ofWidth pattern.width).filter (pattern.accepts ·)).card =
      2 ^ (pattern.width - pattern.fixedBits) :=
  card_acceptsBits pattern.bits

end Pattern

namespace Resolved

variable (resolved : Resolved)

theorem guards_nodup : resolved.guards.Nodup := by
  refine List.pairwise_map.mpr (resolved.enabledRules_pairwise.imp fun before same => ?_)
  have position := congrArg Guard.position same
  exact Nat.ne_of_lt before position

/-- The inputs are those that no guard decides and those that the guards decide, each by one. -/
theorem card_firstMatch? (width : Nat) :
    (Input.ofWidth width).card =
      ((Input.ofWidth width).filter fun input =>
        resolved.nativeLogic.firstMatch? input = none).card +
      (resolved.table.enabledRows.map fun row => ((Input.ofWidth width).filter fun input =>
        resolved.nativeLogic.firstMatch? input =
          some (row.1.resolve resolved.table.output row.2).guard).card).sum := by
  have decided : Set.MapsTo resolved.nativeLogic.firstMatch? (Input.ofWidth width)
      (Finset.insertNone resolved.guards.toFinset) := by
    intro input _
    simp only [Finset.mem_coe, Finset.mem_insertNone, List.mem_toFinset]
    exact fun guard found => List.mem_of_find?_eq_some found
  rw [Finset.card_eq_sum_card_fiberwise decided, Finset.sum_insertNone,
    List.sum_toFinset _ resolved.guards_nodup, guards_eq_map, List.map_map]
  rfl

variable {row : Rule × Nat}

theorem parse_pattern_of_mem (enabled : row ∈ resolved.table.enabledRows) :
    Pattern.parse row.1.pattern = .ok (Pattern.ofSymbols row.1.pattern.toList) := by
  obtain ⟨listed, _⟩ := (resolved.table.mem_enabledRows_iff row).mp enabled
  exact Pattern.parse_eq_ok_of_clean (resolved.badSymbols_eq_nil (List.mem_of_getElem? listed))

theorem width_pattern_of_mem (enabled : row ∈ resolved.table.enabledRows) :
    (Pattern.ofSymbols row.1.pattern.toList).width = resolved.table.inputWidth := by
  have guarded : (row.1.resolve resolved.table.output row.2).guard ∈ resolved.guards := by
    rw [guards_eq_map]
    exact List.mem_map_of_mem enabled
  exact (resolved.guard_wellFormed guarded).width

end Resolved

section Disjoint

variable {resolved : Resolved} {row : Rule × Nat}

/-- Among disjoint rows a row is the first match of whatever its pattern accepts. -/
theorem Table.Disjoint.firstMatch?_eq_guard_iff (disjoint : resolved.table.Disjoint)
    (enabled : row ∈ resolved.table.enabledRows) (input : Input) :
    resolved.nativeLogic.firstMatch? input =
        some (row.1.resolve resolved.table.output row.2).guard ↔
      (Pattern.ofSymbols row.1.pattern.toList).accepts input = true := by
  obtain ⟨listed, active⟩ := (resolved.table.mem_enabledRows_iff row).mp enabled
  constructor
  · intro found
    have accepted := List.find?_some found
    exact accepted
  · intro accepted
    have agrees := (resolved.accepts_iff_matches input listed).mp accepted
    have decides := (disjoint.decides_iff input row.2 row.1).mpr ⟨listed, active, agrees⟩
    exact (resolved.firstMatch?_eq_some_iff input _).mpr ⟨row.2, row.1, decides, rfl⟩

/-- Among disjoint rows a row decides as many inputs as its pattern accepts. -/
theorem Table.Disjoint.card_firstMatch?_eq_guard (disjoint : resolved.table.Disjoint)
    (enabled : row ∈ resolved.table.enabledRows) :
    ((Input.ofWidth resolved.table.inputWidth).filter fun input =>
      resolved.nativeLogic.firstMatch? input =
        some (row.1.resolve resolved.table.output row.2).guard).card =
      2 ^ (resolved.table.inputWidth - (Pattern.ofSymbols row.1.pattern.toList).fixedBits) := by
  simp only [disjoint.firstMatch?_eq_guard_iff enabled, ← resolved.width_pattern_of_mem enabled]
  exact Pattern.card_accepts _

end Disjoint

/-- Whatever strict mode compiles shares out the inputs by the numbers of fixed bits: of the `2 ^ w`
inputs of the width `w`, an enabled row decides two to the power of the open bits of its pattern,
these shares together do not exceed all inputs, and exactly the rest of the inputs has no first
match. -/
theorem Table.strict_compile_shares_inputs (table : Table) (config : Config)
    (compilation : Compilation) (strict : config.strict = true)
    (compiled : table.compile config = .ok compilation) :
    ∃ pattern : Rule → Pattern,
      let inputs := Input.ofWidth table.inputWidth
      let share := fun row : Rule × Nat => 2 ^ (table.inputWidth - (pattern row.1).fixedBits)
      let shares := (table.enabledRows.map share).sum
      (∀ input, input ∈ inputs ↔ input.length = table.inputWidth) ∧
      inputs.card = 2 ^ table.inputWidth ∧
      (∀ row ∈ table.enabledRows, Pattern.parse row.1.pattern = .ok (pattern row.1)) ∧
      List.Forall₂ (fun guard row => guard.Represents table.output row ∧
          (inputs.filter fun input => compilation.logic.firstMatch? input = some guard).card =
            share row)
        compilation.logic.guards table.enabledRows ∧
      shares ≤ 2 ^ table.inputWidth ∧
      (inputs.filter fun input => compilation.logic.firstMatch? input = none).card =
        2 ^ table.inputWidth - shares := by
  obtain ⟨_, resolved, rfl, silent, _, rfl⟩ := (table.compile_eq_ok_iff _ _).mp compiled
  have disjoint := resolved.overlaps_eq_nil_iff_disjoint.mp (silent strict)
  have total := resolved.card_firstMatch? resolved.table.inputWidth
  rw [Input.card_ofWidth,
    List.map_congr_left fun _ enabled => disjoint.card_firstMatch?_eq_guard enabled] at total
  refine ⟨fun row => Pattern.ofSymbols row.pattern.toList, Input.mem_ofWidth_iff _,
    Input.card_ofWidth _, fun row => resolved.parse_pattern_of_mem, ?_, ?_, ?_⟩
  · change List.Forall₂ _ resolved.guards _
    rw [resolved.guards_eq_map, List.forall₂_map_left_iff, List.forall₂_same]
    intro row enabled
    exact ⟨resolved.represents_guard enabled, disjoint.card_firstMatch?_eq_guard enabled⟩
  · exact total ▸ Nat.le_add_left _ _
  · exact Nat.eq_sub_of_add_eq total.symm

/-- Of the four inputs of the disjoint rows, `0.` decides two, `10` one, and no row the last one. -/
theorem exclusive_shares_inputs :
    exclusive.table.compile { strict := true } = .ok (exclusive.compilation {}) ∧
    (exclusive.guards.map fun guard => ((Input.ofWidth 2).filter fun input =>
      exclusive.nativeLogic.firstMatch? input = some guard).card) = [2, 1] ∧
    ((Input.ofWidth 2).filter fun input =>
      exclusive.nativeLogic.firstMatch? input = none).card = 1 := by
  have compiled : exclusive.table.compile { strict := true } = .ok (exclusive.compilation {}) :=
    (Table.compile_eq_ok_iff _ _ _).mpr
      ⟨by decide +kernel, exclusive, rfl, fun _ => by decide +kernel, rfl, rfl⟩
  obtain ⟨pattern, _, _, parsed, decided, _, rest⟩ :=
    Table.strict_compile_shares_inputs exclusive.table _ _ rfl compiled
  have shares : exclusive.table.enabledRows.map
      (fun row => 2 ^ (exclusive.table.inputWidth - (pattern row.1).fixedBits)) = [2, 1] := by
    have rows : exclusive.table.enabledRows =
        [(⟨"low", "0.", ["load"], true⟩, 0), (⟨"high", "10", ["store", "load"], true⟩, 2)] := by
      decide +kernel
    have low : Pattern.parse "0." = .ok ⟨[.zero, .dontCare]⟩ := by decide
    have high : Pattern.parse "10" = .ok ⟨[.one, .zero]⟩ := by decide
    simp only [rows, List.forall_mem_cons, low, high, Except.ok.injEq] at parsed
    obtain ⟨first, second, _⟩ := parsed
    simp only [rows, List.map_cons, List.map_nil, ← first, ← second]
    decide
  refine ⟨compiled, ?_, rest.trans (congrArg (4 - List.sum ·) shares)⟩
  rw [← shares, ← List.forall₂_eq_eq_eq, List.forall₂_map_left_iff, List.forall₂_map_right_iff]
  exact decided.imp fun _ _ represented => represented.2

end DecoderGen
