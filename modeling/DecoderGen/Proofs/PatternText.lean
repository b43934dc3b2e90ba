import DecoderGen.Proofs.RuleFaults

/-! # Patterns and the texts they are written as

Patterns and the texts made of `0`, `1` and `.` are in one-to-one correspondence: reading a text
succeeds exactly if it is the text of a pattern, and returns that pattern. The digits of a `casez`
literal differ from the text in the open bits alone, so they still determine the pattern.

A text that is refused is described without reading it, by the characters that do not belong in a
pattern and their places among the characters. There is only one list of them in increasing order,
so the description says what the refusal is, not only what it contains.
-/

namespace DecoderGen

namespace PatternBit

theorem casezSymbol_eq_ite (bit : PatternBit) :
    bit.casezSymbol = if bit.symbol = '.' then '?' else bit.symbol := by
  cases bit <;> rfl

theorem casezSymbol_injective : Function.Injective casezSymbol := by
  intro bit other same
  cases bit <;> cases other <;> revert same <;> decide

end PatternBit

namespace Pattern

/-- The list holds each character of the text that no pattern is written with, at its place among
the characters, and orders them by place. -/
structure ListsIllegal (text : String) (bad : List BadSymbol) : Prop where
  mem_iff : ∀ found, found ∈ bad ↔
    text.toList[found.position]? = some found.symbol ∧ found.symbol ∉ patternSymbols
  increasing : bad.Pairwise fun earlier later => earlier.position < later.position

namespace ListsIllegal

variable {text : String} {bad other : List BadSymbol}

theorem nodup (lists : ListsIllegal text bad) : bad.Nodup := by
  refine lists.increasing.imp fun before same => ?_
  rw [same] at before
  exact Nat.lt_irrefl _ before

/-- A text has one list of illegal symbols: their places leave no choice of order. -/
theorem unique (lists : ListsIllegal text bad) (otherLists : ListsIllegal text other) :
    bad = other := by
  have permuted : bad.Perm other :=
    (List.perm_ext_iff_of_nodup lists.nodup otherLists.nodup).mpr fun found =>
      (lists.mem_iff found).trans (otherLists.mem_iff found).symm
  refine permuted.eq_of_pairwise ?_ lists.increasing otherLists.increasing
  intro first second _ _ before after
  exact absurd before (Nat.lt_asymm after)

end ListsIllegal

/-- The scan of a text lists its illegal symbols. -/
theorem listsIllegal_badSymbols (text : String) :
    ListsIllegal text (badSymbols 0 text.toList) := by
  rw [badSymbols_eq]
  constructor
  · rintro ⟨position, symbol⟩
    simp [List.mem_zipIdx_iff_getElem?]
  · have places : text.toList.zipIdx.Pairwise fun earlier later => earlier.2 < later.2 := by
      rw [← List.pairwise_map, List.zipIdx_map_snd]
      exact List.pairwise_lt_range'
    exact List.pairwise_map.mpr (places.filter _)

theorem ofSymbols_map_symbol (bits : List PatternBit) :
    ofSymbols (bits.map PatternBit.symbol) = ⟨bits⟩ := by
  rw [ofSymbols, List.filterMap_map]
  simp

/-- A text is read as a pattern exactly if it is the text of that pattern. -/
theorem parse_eq_ok_iff (text : String) (pattern : Pattern) :
    parse text = .ok pattern ↔ pattern.text = text := by
  constructor
  · intro read
    unfold parse at read
    split at read
    · next clean =>
      cases read
      rw [← String.toList_inj, text_toList, map_symbol_of_badSymbols_eq_nil clean]
    · cases read
  · rintro rfl
    have clean : badSymbols 0 pattern.text.toList = [] := by
      rw [text_toList, badSymbols_map_symbol]
    rw [parse_eq_ok_of_clean clean, text_toList, ofSymbols_map_symbol]

/-- A text is refused exactly if it has illegal symbols, with the list of all of them. -/
theorem parse_eq_error_iff (text : String) (bad : List BadSymbol) :
    parse text = .error bad ↔ bad ≠ [] ∧ ListsIllegal text bad := by
  have scanned := listsIllegal_badSymbols text
  unfold parse
  split
  · next clean =>
    -- The scan found nothing, so the empty list is the only one that lists the illegal symbols.
    rw [clean] at scanned
    refine iff_of_false (fun refused => by cases refused) ?_
    rintro ⟨nonempty, lists⟩
    exact nonempty (lists.unique scanned)
  · next dirty =>
    constructor
    · intro refused
      cases refused
      exact ⟨dirty, scanned⟩
    · rintro ⟨_, lists⟩
      rw [lists.unique scanned]

theorem width_eq_length_text (pattern : Pattern) : pattern.width = pattern.text.length := by
  rw [width, ← String.length_toList, text_toList, List.length_map]

/-- The digits of a literal are the text with `?` for the open bits. -/
theorem casez_eq_map_text (pattern : Pattern) :
    pattern.casez = pattern.text.map fun symbol => if symbol = '.' then '?' else symbol := by
  rw [← String.toList_inj, String.toList_map, casez, String.toList_ofList, text_toList,
    List.map_map]
  exact List.map_congr_left fun bit _ => bit.casezSymbol_eq_ite

theorem casez_injective : Function.Injective casez := by
  rintro ⟨bits⟩ ⟨others⟩ same
  exact congrArg Pattern.mk
    (List.map_injective_iff.mpr PatternBit.casezSymbol_injective (String.ofList_injective same))

/-- Reading and writing patterns are inverse to one another, over all texts and all patterns. What
is read is as wide as its text has characters, and its literal is the text with `?` for `.`, which
loses nothing. What is not read is refused with the characters other than `0`, `1` and `.`, all of
them and no others, by increasing place among the characters, and there is at least one. -/
theorem reading_inverts_writing (text : String) (pattern : Pattern) :
    (parse text = .ok pattern ↔ pattern.text = text) ∧
    (parse text = .ok pattern →
      pattern.width = text.length ∧
      pattern.casez = text.map fun symbol => if symbol = '.' then '?' else symbol) ∧
    Function.Injective casez ∧
    ∀ bad, parse text = .error bad ↔ bad ≠ [] ∧ ListsIllegal text bad := by
  refine ⟨parse_eq_ok_iff text pattern, fun read => ?_, casez_injective, parse_eq_error_iff text⟩
  obtain rfl := (parse_eq_ok_iff text pattern).mp read
  exact ⟨pattern.width_eq_length_text, pattern.casez_eq_map_text⟩

/-- The pattern `.10.`. -/
def openEnds : Pattern := ⟨[.dontCare, .one, .zero, .dontCare]⟩

/-- The literal of `.10.` replaces its two dots. Places count characters: `é` and `𝟙` are several
bytes long, and the last illegal symbol of `0é.?𝟙` is at place 4. -/
theorem openEnds_read_accented_refused :
    parse ".10." = .ok openEnds ∧ openEnds.text = ".10." ∧ openEnds.width = 4 ∧
    openEnds.casez = "?10?" ∧
    parse "0é.?𝟙" = .error [⟨1, 'é'⟩, ⟨3, '?'⟩, ⟨4, '𝟙'⟩] ∧
    ListsIllegal "0é.?𝟙" [⟨1, 'é'⟩, ⟨3, '?'⟩, ⟨4, '𝟙'⟩] := by
  have read : parse ".10." = .ok openEnds := by decide
  have refused : parse "0é.?𝟙" = .error [⟨1, 'é'⟩, ⟨3, '?'⟩, ⟨4, '𝟙'⟩] := by decide
  have replaced : (".10.".map fun symbol => if symbol = '.' then '?' else symbol) = "?10?" := by
    rw [← String.toList_inj, String.toList_map]
    decide
  obtain ⟨written, shape, _, _⟩ := reading_inverts_writing ".10." openEnds
  obtain ⟨_, _, _, refusals⟩ := reading_inverts_writing "0é.?𝟙" openEnds
  obtain ⟨width, literal⟩ := shape read
  exact ⟨read, written.mp read, width, literal.trans replaced, refused,
    ((refusals _).mp refused).2⟩

end Pattern
end DecoderGen
