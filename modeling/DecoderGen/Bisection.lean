/-! # Search by bisection

Decides whether a key occurs in an array by halving the range of positions at which it can stand.
On an array in strictly ascending order the answer is membership.
-/

namespace DecoderGen.Bisection

variable {α : Type} [Ord α]

/-- Whether keys ascend strictly. -/
def Ascending (keys : Array α) : Prop := keys.toList.Pairwise fun left right => compare left right = .lt

/-- Whether each key is smaller than the one behind it. -/
def ascends : List α → Bool
  | [] => true
  | [_] => true
  | first :: second :: rest => compare first second == .lt && ascends (second :: rest)

/-- Search the positions from `low` on that are below `high`, with at most the given number of
halvings. -/
def searchRange (keys : Array α) (key : α) : Nat → Nat → Nat → Bool
  | 0, _, _ => false
  | steps + 1, low, high =>
    if low < high then
      let middle := (low + high) / 2
      match keys[middle]? with
      | none => false
      | some found =>
        match compare key found with
        | .lt => searchRange keys key steps low middle
        | .gt => searchRange keys key steps (middle + 1) high
        | .eq => true
    else false

/-- Whether a key occurs among ascending keys. -/
def contains (keys : Array α) (key : α) : Bool := searchRange keys key keys.size 0 keys.size

theorem Ascending.compare_getElem {keys : Array α} (ascending : Ascending keys) {first second : Nat}
    (before : first < second) (bound : second < keys.size) :
    compare keys[first] keys[second] = .lt := by
  have earlier : first < keys.size := Nat.lt_trans before bound
  exact List.pairwise_iff_getElem.mp ascending first second earlier bound before

variable [Std.TransOrd α]

/-- Neighbours in order put all keys in order. -/
theorem ascends_eq_true_iff (keys : List α) :
    ascends keys = true ↔ keys.Pairwise fun left right => compare left right = .lt := by
  induction keys with
  | nil => simp [ascends]
  | cons first rest ih =>
    cases rest with
    | nil => simp [ascends]
    | cons second rest =>
      rw [ascends, Bool.and_eq_true, beq_iff_eq, ih]
      constructor
      · rintro ⟨smaller, ordered⟩
        refine List.pairwise_cons.mpr ⟨fun key member => ?_, ordered⟩
        rcases List.mem_cons.mp member with rfl | later
        · exact smaller
        · exact Std.TransCmp.lt_trans smaller ((List.pairwise_cons.mp ordered).1 key later)
      · intro ordered
        have parts := List.pairwise_cons.mp ordered
        exact ⟨parts.1 second (List.mem_cons_self ..), parts.2⟩

variable [Std.LawfulEqOrd α]

/-- With enough halvings the search finds a key exactly where it stands within the range. -/
theorem searchRange_eq_true_iff {keys : Array α} (ascending : Ascending keys) (key : α)
    (steps low high : Nat) (bound : high ≤ keys.size) (enough : high - low ≤ steps) :
    searchRange keys key steps low high = true ↔
      ∃ position, low ≤ position ∧ position < high ∧ keys[position]? = some key := by
  induction steps generalizing low high with
  | zero =>
    simp only [searchRange, Bool.false_eq_true, false_iff]
    rintro ⟨position, _, _, _⟩
    omega
  | succ steps ih =>
    rw [searchRange]
    split
    case isFalse empty =>
      simp only [Bool.false_eq_true, false_iff]
      rintro ⟨position, _, _, _⟩
      omega
    case isTrue nonempty =>
      have inside : (low + high) / 2 < keys.size := by omega
      simp only [Array.getElem?_eq_getElem inside]
      split
      · next smaller =>
        rw [ih low ((low + high) / 2) (by omega) (by omega)]
        constructor
        · rintro ⟨position, above, below, stands⟩
          exact ⟨position, above, by omega, stands⟩
        · rintro ⟨position, above, below, stands⟩
          refine ⟨position, above, ?_, stands⟩
          apply Nat.lt_of_not_le
          intro late
          obtain ⟨_, rfl⟩ := Array.getElem?_eq_some_iff.mp stands
          rcases Nat.lt_or_eq_of_le late with later | rfl
          · have order := Std.TransCmp.lt_trans smaller (ascending.compare_getElem later (by omega))
            simp at order
          · simp at smaller
      · next larger =>
        rw [ih ((low + high) / 2 + 1) high bound (by omega)]
        constructor
        · rintro ⟨position, above, below, stands⟩
          exact ⟨position, by omega, below, stands⟩
        · rintro ⟨position, above, below, stands⟩
          refine ⟨position, ?_, below, stands⟩
          apply Nat.lt_of_not_le
          intro early
          obtain ⟨_, rfl⟩ := Array.getElem?_eq_some_iff.mp stands
          rcases Nat.lt_or_eq_of_le early with earlier | rfl
          · have order := ascending.compare_getElem earlier inside
            rw [order] at larger
            cases larger
          · simp at larger
      · next same =>
        have found := Std.LawfulEqOrd.eq_of_compare same
        exact ⟨fun _ => ⟨(low + high) / 2, by omega, by omega,
          by rw [Array.getElem?_eq_getElem inside, found]⟩, fun _ => rfl⟩

/-- On ascending keys the search decides membership. -/
theorem contains_eq_true_iff {keys : Array α} (ascending : Ascending keys) (key : α) :
    contains keys key = true ↔ key ∈ keys := by
  rw [contains, searchRange_eq_true_iff ascending key _ _ _ (Nat.le_refl _) (by omega),
    Array.mem_iff_getElem?]
  constructor
  · rintro ⟨position, _, _, stands⟩
    exact ⟨position, stands⟩
  · rintro ⟨position, stands⟩
    exact ⟨position, Nat.zero_le _, (Array.getElem?_eq_some_iff.mp stands).1, stands⟩

end DecoderGen.Bisection
