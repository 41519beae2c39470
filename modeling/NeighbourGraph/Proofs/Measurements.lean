/-
Tables of measurements.

Only the label of a record can hold characters that mean something in a table, since numbers are
written with digits, signs, points and letters. The label stands between quotes, so commas and line
endings in it are safe; its own quotes are not written twice. A table shows its records again
exactly if no label has a quote in it.
-/

import Mathlib.Data.List.Forall2
import NeighbourGraph.Proofs.Table
import NeighbourGraph.Recall

namespace NeighbourGraph.Number

open NeighbourGraph.Text.Table

/-! ### Numbers -/

theorem plain_of_isDigit {c : Char} (digit : c.isDigit = true) : Plain c := by
  refine ⟨?_, ?_, ?_, ?_⟩ <;>
  · rintro rfl
    exact absurd digit (by decide)

theorem bare_toString (n : Nat) : Bare (toString n) := by
  intro c mem
  rw [Nat.toString_eq_repr, Nat.toList_repr] at mem
  exact plain_of_isDigit (Nat.isDigit_of_mem_toDigits (by decide) (by decide) mem)

theorem bare_zeros (n : Nat) : Bare (zeros n) := by
  intro c mem
  rw [zeros, String.toList_ofList] at mem
  rw [List.eq_of_mem_replicate mem]
  decide

theorem bare_padded (width n : Nat) : Bare (padded width n) :=
  (bare_zeros _).append (bare_toString n)

theorem bare_signText (negative : Bool) : Bare (signText negative) := by
  cases negative <;> decide

/-- A number with a fixed count of places needs no quotes, whatever it is. -/
theorem bare_fixedText (places : Nat) (x : Float) : Bare (fixedText places x) := by
  rw [fixedText]
  split
  · decide
  · exact (bare_signText _).append (by decide)
  · next v _ =>
    have whole (n : Nat) : Bare (signText v.negative ++ toString n) :=
      (bare_signText _).append (bare_toString n)
    dsimp only
    split
    · exact whole _
    · exact ((whole _).append (by decide)).append (bare_padded _ _)

end NeighbourGraph.Number

namespace NeighbourGraph.Recall

open NeighbourGraph.Number NeighbourGraph.Text.Table

variable {r : Record} {rest : List Char}

/-! ### Lines -/

/-- The names of the columns, one by one. -/
def columns : List String :=
  ["label", "recall_hits", "recall_total", "recall_fraction", "ran_iterations",
    "node_pairs_considered"]

/-- A row shows a record: its label, and its counts in decimal. -/
def Shows (r : Record) (row : List String) : Prop :=
  ∃ fraction, row = [r.label, toString r.score.hits, toString r.score.total, fraction,
    toString r.iterations, toString r.pairs]

/-- What a line says behind the label. -/
def Record.figures (r : Record) : List String :=
  [toString r.score.hits, toString r.score.total, fixedText 6 r.score.fraction,
    toString r.iterations, toString r.pairs]

theorem bare_figures (r : Record) : ∀ field ∈ r.figures, Bare field := by
  simp only [Record.figures, List.forall_mem_cons]
  exact ⟨bare_toString _, bare_toString _, bare_fixedText _ _, bare_toString _, bare_toString _,
    nofun⟩

theorem toList_line (r : Record) :
    r.line.toList = '"' :: (r.label.toList ++ '"' :: ',' :: rowText r.figures) := by
  unfold Record.line Record.figures
  simp only [rowText_cons, rowText_single, String.toList_append, List.append_assoc]
  rfl

/-- A line is read as its record if the label has no quotes in it. -/
theorem rowsFrom_line (unquoted : '"' ∉ r.label.toList) (rest : List Char) :
    rowsFrom .fresh [] (r.line.toList ++ rest) =
      (rowsFrom .fresh [] rest).map ((r.label :: r.figures) :: ·) := by
  have label : rowsFrom .fresh [] (r.line.toList ++ rest) =
      rowsFrom .closing r.label.toList (',' :: (rowText r.figures ++ rest)) := by
    have read := rowsFrom_doubled [] r.label.toList (',' :: (rowText r.figures ++ rest))
    rw [doubled_eq_self unquoted] at read
    rw [toList_line, List.cons_append, List.append_assoc]
    exact read
  have figures : rowsFrom .start [] (rowText r.figures ++ rest) =
      (rowsFrom .fresh [] rest).map (r.figures :: ·) :=
    rowsFrom_row unquoted_start (bare_figures r) rest
  rw [label, rowsFrom]
  change (rowsFrom .start [] _).map _ = _
  rw [figures, Option.map_map, String.ofList_toList]
  rfl

/-- Where the label comes back, it has no quotes in it. -/
theorem not_mem_of_rowsFrom_line {fields : List String} {more : List (List String)}
    (read : rowsFrom .fresh [] (r.line.toList ++ rest) = some ((r.label :: fields) :: more)) :
    '"' ∉ r.label.toList := by
  rw [toList_line, List.cons_append, List.append_assoc] at read
  change rowsFrom .quoted [] _ = _ at read
  obtain ⟨own, behind, text, fields', more', same⟩ := (exists_of_rowsFrom_quoted _).1 _ _ read
  have comes : own = r.label.toList := by
    have first := (List.cons.inj (List.cons.inj same).1).1
    rw [List.nil_append] at first
    rw [first, String.toList_ofList]
  rw [comes] at text
  exact not_mem_of_doubled text.symm

/-! ### Tables -/

theorem toList_header : header.toList = rowText columns := by
  decide

theorem bare_columns : ∀ field ∈ columns, Bare field := by
  decide

/-- The header is one row, and the lines follow. -/
theorem rows?_table (records : List Record) :
    rows? (table records) =
      (rowsFrom .fresh [] (records.flatMap (·.line.toList))).map (columns :: ·) := by
  rw [rows?, table, String.toList_append, toList_header, String.toList_join, List.flatMap_map]
  exact rowsFrom_row unquoted_fresh bare_columns _

/-- The lines show the records exactly if no label has a quote in it. -/
theorem lines_show_iff (records : List Record) :
    (∃ rows, rowsFrom .fresh [] (records.flatMap (·.line.toList)) = some rows ∧
        List.Forall₂ Shows records rows) ↔
      ∀ r ∈ records, '"' ∉ r.label.toList := by
  induction records with
  | nil => exact ⟨fun _ => nofun, fun _ => ⟨[], rfl, .nil⟩⟩
  | cons r records ih =>
    rw [List.flatMap_cons, List.forall_mem_cons]
    constructor
    · rintro ⟨rows, read, shown⟩
      obtain ⟨_, rows, ⟨fraction, rfl⟩, others, rfl⟩ := List.forall₂_cons_left_iff.1 shown
      have unquoted := not_mem_of_rowsFrom_line read
      rw [rowsFrom_line unquoted, Option.map_eq_some_iff] at read
      obtain ⟨rows', read, same⟩ := read
      rw [(List.cons.inj same).2] at read
      exact ⟨unquoted, ih.1 ⟨rows, read, others⟩⟩
    · rintro ⟨unquoted, others⟩
      obtain ⟨rows, read, shown⟩ := ih.2 others
      exact ⟨_, by rw [rowsFrom_line unquoted, read]; rfl, .cons ⟨_, rfl⟩ shown⟩

/-- The table, read again, is the header and then the records in order. -/
def Readable (records : List Record) : Prop :=
  ∃ rows, rows? (table records) = some (columns :: rows) ∧ List.Forall₂ Shows records rows

theorem readable_iff_lines (records : List Record) :
    Readable records ↔ ∃ rows, rowsFrom .fresh [] (records.flatMap (·.line.toList)) = some rows ∧
      List.Forall₂ Shows records rows := by
  rw [Readable, rows?_table]
  constructor
  · rintro ⟨rows, read, shown⟩
    obtain ⟨rows', read, same⟩ := Option.map_eq_some_iff.1 read
    exact ⟨rows, (List.cons.inj same).2 ▸ read, shown⟩
  · rintro ⟨rows, read, shown⟩
    exact ⟨rows, by rw [read]; rfl, shown⟩

/-- **Tables are read back exactly if no label has a quote.** Commas and line endings in labels are
safe. -/
theorem readable_iff (records : List Record) :
    Readable records ↔ ∀ r ∈ records, '"' ∉ r.label.toList :=
  (readable_iff_lines records).trans (lines_show_iff records)

/-- A quote within a label leaves no table at all. -/
theorem quotedLabel_unreadable : ¬Readable [⟨"a\"b", ⟨1, 2⟩, 3, 4⟩] := by
  rintro ⟨rows, read, -⟩
  rw [rows?_table] at read
  cases read

/-! ### Labels of measurements -/

theorem Label.not_mem_text (label : Label) : '"' ∉ label.text.toList := by
  have number (n : Nat) : '"' ∉ (toString n).toList := fun mem => (bare_toString n _ mem).2.2.2 rfl
  have words (s : String) : toString s = s := rfl
  cases label with
  | quality points topK sampler =>
    simp only [Label.text, words, String.toList_append, List.mem_append, number, not_or]
    cases sampler <;> decide
  | scaling points threads =>
    simp only [Label.text, words, String.toList_append, List.mem_append, number, not_or]
    decide

/-- What varies in measurements is never lost. -/
theorem readable_of_labels {records : List Record}
    (made : ∀ r ∈ records, ∃ label : Label, r.label = label.text) : Readable records := by
  rw [readable_iff_lines, lines_show_iff]
  intro r mem
  obtain ⟨label, text⟩ := made r mem
  rw [text]
  exact label.not_mem_text

end NeighbourGraph.Recall
