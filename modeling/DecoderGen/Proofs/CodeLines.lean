import DecoderGen.SystemVerilog.Line
import Mathlib.Data.List.DropRight

/-! # Reading generated text line by line

Generated text is the text of indented lines, and splitting it recovers them: each line of the list
is one line of the text as long as it holds no line break. Read as code, the text is its lines
without the blanks around them and without comment lines, so that indentation by spaces disappears.
-/

namespace DecoderGen.SystemVerilog

/-- A line without the blanks at its ends. -/
def trimmed (line : List Char) : List Char :=
  (line.dropWhile Char.isWhitespace).rdropWhile Char.isWhitespace

/-- Whether a line is a comment. -/
def isComment (line : List Char) : Bool := "//".toList.isPrefixOf line

/-- The lines of a text without surrounding blanks and without comments. -/
def codeLines (text : String) : List (List Char) :=
  ((text.toList.splitOn '\n').map trimmed).filter (!isComment ·)

/-- The lines of a text as they stand. What follows the last line break is a line too. -/
def textLines (text : String) : List (List Char) := text.toList.splitOn '\n'

/-- What is read of a line of generated text. -/
def Line.code (line : Line) : List Char := trimmed line.text.toList

@[simp] theorem trimmed_nil : trimmed [] = [] := rfl

theorem trimmed_sublist (line : List Char) : (trimmed line).Sublist line :=
  (List.rdropWhile_prefix _ _).sublist.trans (List.dropWhile_sublist _)

theorem trimmed_replicate_append (count : Nat) (line : List Char) :
    trimmed (List.replicate count ' ' ++ line) = trimmed line := by
  unfold trimmed
  rw [List.dropWhile_append_of_pos]
  intro symbol member
  rw [List.eq_of_mem_replicate member]
  rfl

/-- A line with no blank at either end is read as it stands. -/
theorem trimmed_eq_self {line : List Char} {first last : Char} (starts : line.head? = some first)
    (ends : line.getLast? = some last) (solidFirst : first.isWhitespace = false)
    (solidLast : last.isWhitespace = false) : trimmed line = line := by
  obtain ⟨rest, rfl⟩ := List.head?_eq_some_iff.mp starts
  rw [trimmed, List.dropWhile_cons_of_neg (by simp [solidFirst]), List.rdropWhile_eq_self_iff]
  intro nonempty
  rw [List.getLast_eq_iff_getLast?_eq_some nonempty |>.mpr ends, solidLast]
  exact Bool.false_ne_true

/-- Reading a line keeps everything up to a character that is no blank. -/
theorem rdropWhile_append_cons {kept : List Char} {solid : Char} {rest : List Char}
    (visible : solid.isWhitespace = false) :
    (kept ++ solid :: rest).rdropWhile Char.isWhitespace =
      kept ++ solid :: rest.rdropWhile Char.isWhitespace := by
  induction rest using List.reverseRecOn with
  | nil => exact List.rdropWhile_concat_neg _ _ _ (by simp [visible])
  | append_singleton rest last ih =>
    rw [← List.cons_append, ← List.append_assoc, List.rdropWhile_concat, List.rdropWhile_concat]
    split
    · exact ih
    · simp

theorem head?_trimmed {line : List Char} {first : Char} (starts : line.head? = some first)
    (visible : first.isWhitespace = false) : (trimmed line).head? = some first := by
  obtain ⟨rest, rfl⟩ := List.head?_eq_some_iff.mp starts
  rw [trimmed, List.dropWhile_cons_of_neg (by simp [visible]), ← List.nil_append (first :: rest),
    rdropWhile_append_cons visible]
  rfl

theorem isComment_eq_false {line : List Char} {first : Char} (starts : line.head? = some first)
    (code : first ≠ '/') : isComment line = false := by
  obtain ⟨rest, rfl⟩ := List.head?_eq_some_iff.mp starts
  change ('/' == first && ['/'].isPrefixOf rest) = false
  rw [beq_false_of_ne code.symm, Bool.false_and]

/-- A line that starts as a comment is read as one. -/
theorem isComment_trimmed (rest : List Char) : isComment (trimmed ('/' :: '/' :: rest)) = true := by
  rw [trimmed, List.dropWhile_cons_of_neg (by decide)]
  have kept := @rdropWhile_append_cons ['/'] '/' rest (by decide)
  rw [List.singleton_append, List.singleton_append] at kept
  rw [kept]
  rfl

namespace Line

/-- The characters of a line with a number of spaces per level of depth, without its end. -/
def shown (count : Nat) (line : Line) : List Char :=
  List.replicate (if line.text = "" then 0 else line.depth * count) ' ' ++ line.text.toList

theorem symbols_eq_shown (count : Nat) (line : Line) :
    line.symbols (String.ofList (List.replicate count ' ')) = line.shown count ++ ['\n'] := by
  rw [symbols, shown]
  split
  · next empty => simp [empty]
  · rw [String.toList_ofList, List.flatten_replicate_replicate]

theorem trimmed_shown (count : Nat) (line : Line) : trimmed (line.shown count) = line.code :=
  trimmed_replicate_append _ _

end Line

/-- The lines of the text of lines are those lines as they are shown. -/
theorem textLines_render (count : Nat) (lines : List Line)
    (single : ∀ line ∈ lines, '\n' ∉ line.text.toList) :
    textLines (Line.render (String.ofList (List.replicate count ' ')) lines) =
      lines.map (Line.shown count) ++ [[]] := by
  rw [textLines, Line.render, String.toList_ofList]
  induction lines with
  | nil => rfl
  | cons line rest ih =>
    have unbroken : '\n' ∉ line.shown count := by
      simp [Line.shown, single line (List.mem_cons_self ..)]
    rw [List.flatMap_cons, line.symbols_eq_shown, List.append_assoc, List.singleton_append,
      List.splitOn_append_cons_self_of_not_mem unbroken,
      ih fun other member => single other (List.mem_cons_of_mem _ member)]
    rfl

/-- Reading the text of lines gives the code of those that are no comments. -/
theorem codeLines_render (count : Nat) (lines : List Line)
    (single : ∀ line ∈ lines, '\n' ∉ line.text.toList) :
    codeLines (Line.render (String.ofList (List.replicate count ' ')) lines) =
      (lines.map Line.code).filter (!isComment ·) ++ [[]] := by
  have code : trimmed ∘ Line.shown count = Line.code := funext (Line.trimmed_shown count)
  rw [codeLines, ← textLines, textLines_render count lines single, List.map_append, List.map_map,
    code, List.filter_append]
  rfl

end DecoderGen.SystemVerilog
