/-
Blanks at the ends of a text, and texts line by line.

Trimming stops at the first and at the last character that is not blank, so more blanks at an end
change nothing. A text is read by its first line and what follows that line; the carriage return
that an ending takes from a line is a blank at its end.
-/

import Mathlib.Data.List.DropRight
import NeighbourGraph.Text.Blank
import NeighbourGraph.Text.Line

namespace NeighbourGraph.Text

variable {c : Char} {line rest : List Char}

/-! ### Blanks at the ends -/

theorem trim_eq (line : List Char) : trim line = (line.dropWhile isBlank).rdropWhile isBlank := rfl

theorem trim_cons_of_isBlank (blank : isBlank c = true) (line : List Char) :
    trim (c :: line) = trim line := by
  rw [trim_eq, trim_eq, List.dropWhile_cons_of_pos blank]

theorem trim_concat_of_isBlank (blank : isBlank c = true) (line : List Char) :
    trim (line ++ [c]) = trim line := by
  rw [trim_eq, trim_eq, List.dropWhile_append]
  split
  · next emptied =>
    rw [List.isEmpty_iff.1 emptied, List.dropWhile_cons_of_pos blank, List.dropWhile_nil]
  · exact List.rdropWhile_concat_pos _ _ _ blank

/-- A text is its trimmed form with blanks around. -/
theorem exists_blanks_around (line : List Char) :
    ∃ lead trail, line = lead ++ (trim line ++ trail) ∧ (∀ c ∈ lead, isBlank c = true) ∧
      ∀ c ∈ trail, isBlank c = true := by
  refine ⟨line.takeWhile isBlank, (line.dropWhile isBlank).rtakeWhile isBlank, ?_,
    fun c hc => List.mem_takeWhile_imp hc, fun c hc => List.mem_rtakeWhile_imp hc⟩
  rw [trim_eq, List.rdropWhile_append_rtakeWhile, List.takeWhile_append_dropWhile]

/-- A trimmed text starts with the first character that is not blank. -/
theorem head?_trim (line : List Char) : (trim line).head? = line.find? fun c => !isBlank c := by
  rw [List.find?_eq_head?_dropWhile_not]
  simp only [Bool.not_not]
  have first := List.head?_dropWhile_not isBlank line
  rw [trim_eq]
  cases left : line.dropWhile isBlank with
  | nil => rfl
  | cons c rest =>
    rw [left] at first
    have stays : (c :: rest).rdropWhile isBlank ≠ [] := by
      rw [Ne, List.rdropWhile_eq_nil_iff]
      exact fun blank => by simp [blank c] at first
    obtain ⟨tail, cut⟩ := List.rdropWhile_prefix isBlank (c :: rest)
    rw [← List.head?_append_of_ne_nil _ stays, cut]

theorem trim_eq_nil_iff : trim line = [] ↔ ∀ c ∈ line, isBlank c = true := by
  rw [← List.head?_eq_none_iff, head?_trim, List.find?_eq_none]
  simp

theorem isBlank_of_head?_trim (first : (trim line).head? = some c) : isBlank c = false := by
  rw [head?_trim] at first
  simpa using List.find?_some first

theorem isBlank_of_getLast?_trim (last : (trim line).getLast? = some c) : isBlank c = false := by
  have ne : trim line ≠ [] := fun emptied => by simp [emptied] at last
  rw [← (List.getLast_eq_iff_getLast?_eq_some ne).2 last]
  exact Bool.eq_false_iff.2 (List.rdropWhile_last_not isBlank _ ne)

/-! ### Lines -/

/-- What ends a line hides a blank at most. -/
theorem trim_withoutReturn (line : List Char) : trim (withoutReturn line) = trim line := by
  unfold withoutReturn
  split
  · next last =>
    conv_rhs => rw [← List.dropLast_append_getLast? _ last]
    exact (trim_concat_of_isBlank (by decide) _).symm
  · rfl

theorem lines_nil : lines [] = [] := rfl

/-- The last line may have no ending. -/
theorem lines_of_not_mem (plain : '\n' ∉ line) (ne : line ≠ []) : lines line = [line] := by
  obtain ⟨c, rest, rfl⟩ := List.exists_cons_of_ne_nil ne
  rw [lines, List.splitOn_eq_singleton plain]
  rfl

theorem lines_append_cons (plain : '\n' ∉ line) (rest : List Char) :
    lines (line ++ '\n' :: rest) = withoutReturn line :: lines rest := by
  have more := List.splitOn_ne_nil '\n' rest
  simp only [lines, List.splitOn_append_cons_self_of_not_mem plain,
    List.dropLast_cons_of_ne_nil more, List.getLast?_cons_of_ne_nil more, List.map_cons]
  rcases (List.splitOn '\n' rest).getLast? with _ | _ | ⟨c, tail⟩
  · rfl
  · rfl
  · rfl

end NeighbourGraph.Text
