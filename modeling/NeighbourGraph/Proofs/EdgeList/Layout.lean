/-
Edge lists under another layout.

Two texts that differ in their blank lines and comments and in the endings of their lines give the
same graph or the same error. Only the number of a malformed line is another one: it is the number
that the line has in the new text.
-/

import NeighbourGraph.Proofs.EdgeList.Lines

namespace NeighbourGraph.EdgeList

open NeighbourGraph.Text

variable {line rest old new text : List Char} {k j : Nat} {moved : List Nat}

/-! ### Layouts -/

/-- A text that is one line and the text behind it. The line ends with a line feed, with a carriage
return and a line feed, or, if it is not empty, with the text. -/
inductive Ended (line : List Char) : List Char → List Char → Prop where
  | feed (rest : List Char) : Ended line rest (line ++ '\n' :: rest)
  | returnFeed (rest : List Char) : Ended line rest (line ++ '\r' :: '\n' :: rest)
  | last (ne : line ≠ []) : Ended line [] line

/-- Two texts with the same lines, up to the endings and up to lines without content that only the
second one has. `k` is the number of the first line of the second text, and the list holds the
number there of every line of the first. -/
inductive Relaid : Nat → List Char → List Char → List Nat → Prop where
  | nil {k : Nat} : Relaid k [] [] []
  | kept {k : Nat} {line old new before after : List Char} {moved : List Nat} (plain : '\n' ∉ line)
    (ended : Ended line old before) (anew : Ended line new after)
    (others : Relaid (k + 1) old new moved) : Relaid k before after (k :: moved)
  | inserted {k : Nat} {line old new after : List Char} {moved : List Nat} (plain : '\n' ∉ line)
    (skipped : hasContent line = false) (ended : Ended line new after)
    (others : Relaid (k + 1) old new moved) : Relaid k old after moved

/-- The error with the new number of its line. Its message stays. The lines had numbers from `first`
on, and the list holds their new ones. -/
def FormatError.renumbered (first : Nat) (moved : List Nat) (e : FormatError) : FormatError :=
  { e with line := moved.getD (e.line - first) 0 }

def Error.renumbered (moved : List Nat) : Error → Error
  | .format cause => .format (cause.renumbered 1 moved)
  | .graph cause => .graph cause

/-! ### Lines of a relaid text -/

/-- The first line of a text has the blanks at its ends and nothing else that the ending may have
changed. -/
theorem lines_of_ended (plain : '\n' ∉ line) (ended : Ended line rest text) :
    ∃ first, lines text = first :: lines rest ∧ trim first = trim line := by
  cases ended with
  | feed => exact ⟨withoutReturn line, lines_append_cons plain rest, trim_withoutReturn line⟩
  | returnFeed =>
    have still : '\n' ∉ line ++ ['\r'] := by simp [plain]
    refine ⟨withoutReturn (line ++ ['\r']), ?_, ?_⟩
    · rw [← lines_append_cons still, List.append_assoc]
      rfl
    · rw [trim_withoutReturn, trim_concat_of_isBlank (by decide)]
  | last ne => exact ⟨line, by rw [lines_of_not_mem plain ne, lines_nil], rfl⟩

/-- Every line of the first text is a line of the second one, at its new number. -/
theorem line_of_relaid (relaid : Relaid k old new moved) {i : Nat}
    (there : (lines old)[i]? = some line) :
    ∃ n line', moved[i]? = some (k + n) ∧ (lines new)[n]? = some line' ∧
      trim line' = trim line := by
  induction relaid generalizing i with
  | nil => simp [lines_nil] at there
  | kept plain ended anew others ih =>
    obtain ⟨first, split, same⟩ := lines_of_ended plain ended
    obtain ⟨first', split', same'⟩ := lines_of_ended plain anew
    rw [split] at there
    rw [split']
    cases i with
    | zero =>
      cases there
      exact ⟨0, first', rfl, rfl, same'.trans same.symm⟩
    | succ i =>
      obtain ⟨n, line', place, found, alike⟩ := ih there
      exact ⟨n + 1, line', by rw [List.getElem?_cons_succ, place]; congr 1; omega, found, alike⟩
  | inserted plain skipped ended others ih =>
    obtain ⟨first, split, -⟩ := lines_of_ended plain ended
    obtain ⟨n, line', place, found, alike⟩ := ih there
    exact ⟨n + 1, line', by rw [place]; congr 1; omega, by rw [split]; exact found, alike⟩

/-! ### Outcomes -/

/-- The errors of later lines are renumbered by the later numbers. -/
theorem mapError_renumbered_cons (k : Nat) (moved : List Nat) (all : List (List Char)) :
    (parseLines (all.zipIdx (j + 1))).mapError (FormatError.renumbered j (k :: moved)) =
      (parseLines (all.zipIdx (j + 1))).mapError (FormatError.renumbered (j + 1) moved) := by
  cases parsed : parseLines (all.zipIdx (j + 1)) with
  | ok edges => rfl
  | error cause =>
    obtain ⟨before, -, -, -, place, -⟩ := parseLines_eq_error_iff.1 parsed
    have later : cause.line - j = cause.line - (j + 1) + 1 := by omega
    simp only [Except.mapError, FormatError.renumbered, later, List.getD_cons_succ]

theorem parseLines_of_relaid (relaid : Relaid k old new moved) (j : Nat) :
    parseLines ((lines new).zipIdx k) =
      (parseLines ((lines old).zipIdx j)).mapError (FormatError.renumbered j moved) := by
  induction relaid generalizing j with
  | nil => rfl
  | @kept k line old new _ _ moved plain ended anew others ih =>
    obtain ⟨first, split, same⟩ := lines_of_ended plain ended
    obtain ⟨first', split', same'⟩ := lines_of_ended plain anew
    have alike : trim first' = trim first := same'.trans same.symm
    have next := (ih (j + 1)).trans (mapError_renumbered_cons k moved (lines old)).symm
    rw [split, split', List.zipIdx_cons, List.zipIdx_cons]
    cases content : hasContent first with
    | false =>
      rw [parseLines_skip content, parseLines_skip ((hasContent_congr alike).trans content)]
      exact next
    | true =>
      have content' := (hasContent_congr alike).trans content
      cases read : parseLine (trim first) with
      | error fault =>
        rw [parseLines_stop content read, parseLines_stop content' (alike ▸ read)]
        simp [Except.mapError, FormatError.renumbered]
      | ok e =>
        rw [parseLines_read content read, parseLines_read content' (alike ▸ read), next]
        cases parseLines ((lines old).zipIdx (j + 1)) with
        | error cause => rfl
        | ok edges => rfl
  | inserted plain skipped ended others ih =>
    obtain ⟨first, split, same⟩ := lines_of_ended plain ended
    rw [split, List.zipIdx_cons, parseLines_skip ((hasContent_congr same).trans skipped)]
    exact ih j

theorem load_of_relaid {text new : String} (relaid : Relaid 1 text.toList new.toList moved)
    (nodeCount : Nat) :
    load new nodeCount = (load text nodeCount).mapError (Error.renumbered moved) := by
  have parsed : parse new = (parse text).mapError (FormatError.renumbered 1 moved) :=
    parseLines_of_relaid relaid 1
  cases read : parse text with
  | error cause =>
    rw [read] at parsed
    rw [load_eq_format_iff.2 read, load_eq_format_iff.2 parsed]
    rfl
  | ok edges =>
    rw [read] at parsed
    rw [load_of_parse read, load_of_parse parsed]
    cases Adjacency.ofEdges nodeCount edges with
    | error cause => rfl
    | ok a => rfl

/-- **Layout keeps the outcome.** For every text: lines without content that are put between its
lines and other endings of its lines leave the graph and the error, except that a malformed line is
named by its number in the new text. An error of the format is that of the first malformed line and
does not depend on the number of nodes; if there is none, the outcome is that of the edges of the
lines with content, in order. -/
theorem layout_keeps_outcome (text : String) (nodeCount : Nat) :
    (∀ (new : String) (moved : List Nat), Relaid 1 text.toList new.toList moved →
      load new nodeCount = (load text nodeCount).mapError (Error.renumbered moved) ∧
      ∀ (i : Nat) (line : List Char), (lines text.toList)[i]? = some line →
        ∃ n line', moved[i]? = some (1 + n) ∧ (lines new.toList)[n]? = some line' ∧
          trim line' = trim line) ∧
    (∀ number fault, load text nodeCount = .error (.format ⟨number, fault⟩) ↔
      ∃ before line after, lines text.toList = before ++ line :: after ∧
        number = 1 + before.length ∧ hasContent line = true ∧
        parseLine (trim line) = .error fault ∧
        ∀ l ∈ before, hasContent l = true → ∃ e, parseLine (trim l) = .ok e) ∧
    ((∀ cause, load text nodeCount ≠ .error (.format cause)) →
      ∃ edges, List.Forall₂ (fun line e => parseLine (trim line) = .ok e)
          ((lines text.toList).filter hasContent) edges ∧
        load text nodeCount = (Adjacency.ofEdges nodeCount edges).mapError .graph) := by
  refine ⟨fun new moved relaid => ⟨load_of_relaid relaid nodeCount, fun i line there =>
    line_of_relaid relaid there⟩, fun number fault => ?_, fun wellFormed => ?_⟩
  · rw [load_eq_format_iff, parse, parseLines_eq_error_iff]
  · cases read : parse text with
    | error cause => exact absurd (load_eq_format_iff.2 read) (wellFormed cause)
    | ok edges => exact ⟨edges, parseLines_eq_ok_iff.1 read, load_of_parse read nodeCount⟩

/-- A comment and a blank line more, and other endings. The malformed second line is the fourth
now. -/
theorem commentedText_keeps_outcome :
    Relaid 1 "0\t1\n1 2".toList "# links\r\n0\t1\r\n\n1 2\n".toList [2, 4] ∧
    load "# links\r\n0\t1\r\n\n1 2\n" 6 = .error (.format ⟨4, .columns 1⟩) := by
  have relaid : Relaid 1 "0\t1\n1 2".toList "# links\r\n0\t1\r\n\n1 2\n".toList [2, 4] := by
    refine .inserted (by decide : '\n' ∉ "# links".toList) (by decide) (.returnFeed _) ?_
    refine .kept (by decide : '\n' ∉ "0\t1".toList) (.feed _) (.returnFeed _) ?_
    refine .inserted (by decide : '\n' ∉ []) (by decide) (.feed _) ?_
    exact .kept (by decide : '\n' ∉ "1 2".toList) (.last (by decide)) (.feed _) .nil
  have old : load "0\t1\n1 2" 6 = .error (.format ⟨2, .columns 1⟩) := by rfl
  obtain ⟨keeps, -⟩ := layout_keeps_outcome "0\t1\n1 2" 6
  exact ⟨relaid, (keeps _ _ relaid).1.trans (congrArg _ old)⟩

end NeighbourGraph.EdgeList
