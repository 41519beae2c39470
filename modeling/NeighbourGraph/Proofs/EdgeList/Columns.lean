/-
What edge lists make of the columns of a line.

A line is trimmed before it is split at tabs, and a tab is a blank. So the empty columns at both
ends of a line are cut off with the blanks, and the line is read by the columns between them. A line
with an empty first column whose target and weight would do as source and target thus gives an edge.
On lines whose first and last columns are not empty nothing is lost or shifted.
-/

import NeighbourGraph.Proofs.EdgeList.Lines

namespace NeighbourGraph.EdgeList

open NeighbourGraph.Number NeighbourGraph.Text

variable {line lead trail : List Char} {c : Char} {cols : List String} {e : Edge}

/-! ### Columns -/

theorem columns_of_not_mem (plain : '\t' ∉ line) : columns line = [String.ofList (trim line)] := by
  rw [columns, List.splitOn_eq_singleton plain, List.map_singleton]

theorem columns_append_tab (l r : List Char) :
    columns (l ++ '\t' :: r) = columns l ++ columns r := by
  rw [columns, List.splitOn_append_cons_self, List.map_append, columns, columns]

/-- A line starts with its first column: what is put in front of the line gets into that column. -/
theorem exists_first_column (line : List Char) :
    ∃ first more, ∀ lead, '\t' ∉ lead →
      columns (lead ++ line) = String.ofList (trim (lead ++ first)) :: more := by
  by_cases tab : '\t' ∈ line
  · obtain ⟨first, r, rfl, plain⟩ := List.eq_append_cons_of_mem tab
    refine ⟨first, columns r, fun lead free => ?_⟩
    rw [← List.append_assoc, columns_append_tab,
      columns_of_not_mem (List.not_mem_append free plain)]
    rfl
  · exact ⟨line, [], fun lead free => columns_of_not_mem (List.not_mem_append free tab)⟩

/-- A line ends with its last column: what is put behind the line gets into that column. -/
theorem exists_last_column (line : List Char) :
    ∃ before last, ∀ trail, '\t' ∉ trail →
      columns (line ++ trail) = before ++ [String.ofList (trim (last ++ trail))] := by
  by_cases tab : '\t' ∈ line
  · obtain ⟨r, l, split, plain⟩ := List.eq_append_cons_of_mem (List.mem_reverse.2 tab)
    have back : line = l.reverse ++ '\t' :: r.reverse := by
      rw [← List.reverse_reverse line, split]
      simp
    refine ⟨columns l.reverse, r.reverse, fun trail free => ?_⟩
    rw [back, List.append_assoc, List.cons_append, columns_append_tab,
      columns_of_not_mem (List.not_mem_append (fun h => plain (List.mem_reverse.1 h)) free)]
  · exact ⟨[], line, fun trail free => columns_of_not_mem (List.not_mem_append tab free)⟩

/-! ### Blanks at the ends of a line -/

theorem columns_cons_of_isBlank (blank : isBlank c = true) (other : c ≠ '\t') (line : List Char) :
    columns (c :: line) = columns line := by
  obtain ⟨first, more, all⟩ := exists_first_column line
  have free : '\t' ∉ [c] := mt List.eq_of_mem_singleton other.symm
  calc columns (c :: line) = String.ofList (trim (c :: first)) :: more := all [c] free
    _ = String.ofList (trim first) :: more := by rw [trim_cons_of_isBlank blank]
    _ = columns line := (all [] List.not_mem_nil).symm

theorem columns_concat_of_isBlank (blank : isBlank c = true) (other : c ≠ '\t')
    (line : List Char) : columns (line ++ [c]) = columns line := by
  obtain ⟨before, last, all⟩ := exists_last_column line
  have free : '\t' ∉ [c] := mt List.eq_of_mem_singleton other.symm
  have alone := all [] List.not_mem_nil
  rw [List.append_nil, List.append_nil] at alone
  rw [all [c] free, trim_concat_of_isBlank blank, alone]

/-- Every tab among the blanks in front of a line makes an empty column there. -/
theorem columns_blanks_append (blanks : ∀ c ∈ lead, isBlank c = true) (line : List Char) :
    columns (lead ++ line) = List.replicate (lead.count '\t') "" ++ columns line := by
  induction lead with
  | nil => rfl
  | cons c lead ih =>
    obtain ⟨blank, others⟩ := List.forall_mem_cons.1 blanks
    by_cases tab : c = '\t'
    · subst tab
      rw [List.count_cons_self, List.replicate_succ, List.cons_append, List.cons_append,
        ← ih others]
      exact columns_append_tab [] (lead ++ line)
    · rw [List.cons_append, columns_cons_of_isBlank blank tab, ih others,
        List.count_cons_of_ne tab]

/-- Every tab among the blanks behind a line makes an empty column there. -/
theorem columns_append_blanks (blanks : ∀ c ∈ trail, isBlank c = true) (line : List Char) :
    columns (line ++ trail) = columns line ++ List.replicate (trail.count '\t') "" := by
  induction trail using List.reverseRecOn with
  | nil => rw [List.append_nil, List.count_nil, List.replicate_zero, List.append_nil]
  | append_singleton trail c ih =>
    obtain ⟨others, blank⟩ := List.forall_mem_append.1 blanks
    rw [← List.append_assoc]
    by_cases tab : c = '\t'
    · subst tab
      rw [columns_append_tab, ih others, List.count_append, List.count_singleton_self,
        List.replicate_succ', List.append_assoc]
      rfl
    · rw [columns_concat_of_isBlank (blank c (List.mem_singleton_self c)) tab, ih others,
        List.count_append, List.count_cons_of_ne tab, List.count_nil, Nat.add_zero]

/-- A column is not empty if something else than blanks is in it. -/
theorem column_ne_empty (mem : c ∈ line) (visible : isBlank c = false) :
    String.ofList (trim line) ≠ "" := by
  rw [Ne, String.ofList_eq_empty_iff, trim_eq_nil_iff]
  exact fun blanks => by simp [blanks c mem] at visible

theorem ne_tab_of_isBlank (visible : isBlank c = false) : c ≠ '\t' := by
  rintro rfl
  simp [show isBlank '\t' = true by decide] at visible

theorem head?_columns_ne (visible : isBlank c = false) (line : List Char) :
    (columns (c :: line)).head? ≠ some "" := by
  obtain ⟨first, more, all⟩ := exists_first_column line
  have split := all [c] (mt List.eq_of_mem_singleton (ne_tab_of_isBlank visible).symm)
  rw [List.singleton_append] at split
  rw [split]
  exact fun empty => column_ne_empty List.mem_cons_self visible (Option.some.inj empty)

theorem getLast?_columns_ne (visible : isBlank c = false) (line : List Char) :
    (columns (line ++ [c])).getLast? ≠ some "" := by
  obtain ⟨before, last, all⟩ := exists_last_column line
  rw [all [c] (mt List.eq_of_mem_singleton (ne_tab_of_isBlank visible).symm), List.getLast?_concat]
  exact fun empty => column_ne_empty (List.mem_append_right _ List.mem_cons_self) visible
    (Option.some.inj empty)

/-! ### Inner columns -/

/-- The columns without the empty ones at both ends. -/
def inner (cols : List String) : List String :=
  (cols.dropWhile fun col => col = "").rdropWhile fun col => col = ""

/-- Nothing is lost of columns that neither start nor end with an empty one. -/
theorem inner_eq_self_iff :
    inner cols = cols ↔ cols.head? ≠ some "" ∧ cols.getLast? ≠ some "" := by
  have front : cols.dropWhile (fun col => col = "") = cols ↔ cols.head? ≠ some "" := by
    cases cols <;> simp [List.dropWhile_eq_self_iff]
  have back : cols.rdropWhile (fun col => col = "") = cols ↔ cols.getLast? ≠ some "" := by
    rcases List.eq_nil_or_concat' cols with rfl | ⟨init, last, rfl⟩ <;>
      simp [List.rdropWhile_eq_self_iff]
  rw [← front, ← back]
  constructor
  · intro same
    have cut := List.rdropWhile_prefix (fun col : String => decide (col = ""))
      (cols.dropWhile fun col => col = "")
    have whole : cols.dropWhile (fun col => col = "") = cols := by
      refine (List.dropWhile_suffix _).eq_of_length_le ?_
      exact (congrArg List.length same).symm.trans_le cut.length_le
    exact ⟨whole, by rwa [inner, whole] at same⟩
  · rintro ⟨whole, kept⟩
    rw [inner, whole, kept]

theorem inner_replicate_append (n : Nat) (cols : List String) :
    inner (List.replicate n "" ++ cols) = inner cols := by
  rw [inner, inner, List.dropWhile_append]
  simp

theorem inner_append_replicate (n : Nat) (cols : List String) :
    inner (cols ++ List.replicate n "") = inner cols := by
  induction n with
  | zero => rw [List.replicate_zero, List.append_nil]
  | succ n ih =>
    rw [List.replicate_succ', ← List.append_assoc, ← ih, inner, inner, List.dropWhile_append]
    split
    · next blank => simp [List.isEmpty_iff.1 blank]
    · simp [List.rdropWhile_concat_pos]

/-- Trimming a line leaves its inner columns. -/
theorem columns_trim (content : trim line ≠ []) : columns (trim line) = inner (columns line) := by
  obtain ⟨lead, trail, split, leading, trailing⟩ := exists_blanks_around line
  conv_rhs => rw [split, columns_blanks_append leading, columns_append_blanks trailing,
    inner_replicate_append, inner_append_replicate]
  refine (inner_eq_self_iff.2 ⟨?_, ?_⟩).symm
  · obtain ⟨c, tail, same⟩ := List.exists_cons_of_ne_nil content
    rw [same]
    exact head?_columns_ne (isBlank_of_head?_trim (by rw [same]; rfl)) tail
  · obtain ⟨init, c, same⟩ := (List.eq_nil_or_concat' (trim line)).resolve_left content
    rw [same]
    exact getLast?_columns_ne (isBlank_of_getLast?_trim (by rw [same, List.getLast?_concat])) init

/-! ### Edges -/

/-- The edge that columns say. -/
inductive Reads : List String → Edge → Prop where
  | plain {source target : String} {s t : Nat} (start : readCount source = .ok s)
    (stop : readCount target = .ok t) : Reads [source, target] ⟨s, t, 1.0⟩
  | weighted {source target weight : String} {s t : Nat} {w : Float}
    (start : readCount source = .ok s) (stop : readCount target = .ok t)
    (real : readReal weight = .ok w) : Reads [source, target, weight] ⟨s, t, w⟩

theorem mapError_bind_eq_ok_iff {α β ε ε' : Type} {x : Except ε α} {f : ε → ε'}
    {g : α → Except ε' β} {b : β} :
    (x.mapError f >>= g) = .ok b ↔ ∃ a, x = .ok a ∧ g a = .ok b := by
  cases x with
  | error cause => simp [Except.mapError, Bind.bind, Except.bind]
  | ok a => simp [Except.mapError, Bind.bind, Except.bind]

theorem edgeOf_eq_ok_iff {source target : String} {weight : Option String} :
    edgeOf source target weight = .ok e ↔ Reads (source :: target :: weight.toList) e := by
  simp only [edgeOf, mapError_bind_eq_ok_iff]
  constructor
  · rintro ⟨s, start, t, stop, more⟩
    cases weight with
    | none =>
      cases more
      exact .plain start stop
    | some text =>
      obtain ⟨w, real, same⟩ := mapError_bind_eq_ok_iff.1 more
      cases same
      exact .weighted start stop real
  · intro reads
    cases weight with
    | none =>
      cases reads with
      | plain start stop => exact ⟨_, start, _, stop, rfl⟩
    | some text =>
      cases reads with
      | weighted start stop real =>
        exact ⟨_, start, _, stop, mapError_bind_eq_ok_iff.2 ⟨_, real, rfl⟩⟩

theorem parseLine_eq_ok_iff : parseLine line = .ok e ↔ Reads (columns line) e := by
  rw [parseLine]
  split
  · next split => rw [split, edgeOf_eq_ok_iff, Option.toList_none]
  · next split => rw [split, edgeOf_eq_ok_iff, Option.toList_some]
  · next two three =>
    refine iff_of_false (by simp) fun reads => ?_
    generalize columns line = cols at *
    cases reads
    · exact two _ _ rfl
    · exact three _ _ _ rfl

/-- What is read of a line with content is what its inner columns say. -/
theorem parseLine_trim_eq_ok_iff (content : hasContent line = true) :
    parseLine (trim line) = .ok e ↔ Reads (inner (columns line)) e := by
  rw [parseLine_eq_ok_iff, columns_trim (trim_ne_nil content)]

theorem exists_parseLine_eq_error_iff (content : hasContent line = true) :
    (∃ fault, parseLine (trim line) = .error fault) ↔ ¬∃ e, Reads (inner (columns line)) e := by
  simp only [← parseLine_trim_eq_ok_iff content]
  cases parseLine (trim line) with
  | error fault => simp
  | ok e => simp

/-! ### Texts -/

/-- **Edge lists are read by their inner columns.** For every text: it fails to be an edge list at a
line exactly if that line has content and its inner columns are not a source, a target and perhaps a
weight, and is the first line of which this is so. If there is no such line, the graph is made of
the edges that the inner columns of the lines with content say, a weight that is not there being 1.
The inner columns are all columns of a line unless the first or the last of them is empty. -/
theorem load_reads_inner_columns (text : String) (nodeCount : Nat) :
    (∀ number, (∃ fault, load text nodeCount = .error (.format ⟨number, fault⟩)) ↔
      ∃ before line after, lines text.toList = before ++ line :: after ∧
        number = before.length + 1 ∧ hasContent line = true ∧
        (¬∃ e, Reads (inner (columns line)) e) ∧
        ∀ l ∈ before, hasContent l = true → ∃ e, Reads (inner (columns l)) e) ∧
    (∀ edges, List.Forall₂ (fun line e => Reads (inner (columns line)) e)
        ((lines text.toList).filter hasContent) edges →
      load text nodeCount = (Adjacency.ofEdges nodeCount edges).mapError .graph) ∧
    ∀ line, inner (columns line) = columns line ↔
      (columns line).head? ≠ some "" ∧ (columns line).getLast? ≠ some "" := by
  refine ⟨fun number => ?_, fun edges reads => ?_, fun line => inner_eq_self_iff⟩
  · simp only [load_eq_format_iff, parse, parseLines_eq_error_iff]
    constructor
    · rintro ⟨fault, before, line, after, split, place, content, bad, good⟩
      exact ⟨before, line, after, split, place.trans (Nat.add_comm _ _), content,
        (exists_parseLine_eq_error_iff content).1 ⟨fault, bad⟩, fun l hl h =>
          (good l hl h).imp fun e => (parseLine_trim_eq_ok_iff h).1⟩
    · rintro ⟨before, line, after, split, place, content, bad, good⟩
      obtain ⟨fault, bad⟩ := (exists_parseLine_eq_error_iff content).2 bad
      exact ⟨fault, before, line, after, split, place.trans (Nat.add_comm _ _), content, bad,
        fun l hl h => (good l hl h).imp fun e => (parseLine_trim_eq_ok_iff h).2⟩
  · have contents : ∀ line ∈ (lines text.toList).filter hasContent, hasContent line = true :=
      fun line hl => List.of_mem_filter hl
    refine load_of_parse (parseLines_eq_ok_iff.2 ?_) nodeCount
    exact ((List.forall₂_and_left _ _).2 ⟨contents, reads⟩).imp fun line e said =>
      (parseLine_trim_eq_ok_iff said.1).2 said.2

/-- A line whose first column is empty and that nevertheless gives an edge. -/
theorem shiftedLine_accepted :
    columns "\t1\t2".toList = ["", "1", "2"] ∧
    (¬∃ e, Reads (columns "\t1\t2".toList) e) ∧
    ∃ a, load "\t1\t2" 3 = .ok a ∧ a.toGraph.relationships 1 = [⟨2, 1.0⟩] := by
  have split : columns "\t1\t2".toList = ["", "1", "2"] := by decide +kernel
  refine ⟨split, ?_, ?_⟩
  · rintro ⟨e, reads⟩
    rw [split] at reads
    cases reads with
    | weighted start _ _ => cases start
  · exact ⟨⟨Adjacency.rowsOf 3 [⟨1, 2, 1.0⟩]⟩, by rfl, by rfl⟩

end NeighbourGraph.EdgeList
