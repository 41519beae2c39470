/-
Edge lists line by line.

Of a line only the trimmed form is read. The lines with content are read in order up to the first
malformed one, which gives the error; if there is none, the edges of these lines make the graph.
-/

import Mathlib.Data.List.Forall2
import NeighbourGraph.Graph.EdgeList
import NeighbourGraph.Proofs.Text

namespace NeighbourGraph.EdgeList

open NeighbourGraph.Text

variable {line line' : List Char} {number first : Nat} {rest : List (List Char × Nat)}
  {all : List (List Char)} {fault : LineFault} {e : Edge} {edges : List Edge}
  {cause : FormatError} {text : String} {nodeCount : Nat}

/-! ### One line -/

/-- There is something else than blanks on the line, and it does not start with a `#`. -/
def hasContent (line : List Char) : Bool := (line.find? fun c => !isBlank c).any (· ≠ '#')

theorem isSkipped_trim (line : List Char) : isSkipped (trim line) = !hasContent line := by
  rw [hasContent, ← head?_trim]
  cases trim line with
  | nil => rfl
  | cons c tail => simp [isSkipped]

theorem trim_ne_nil (content : hasContent line = true) : trim line ≠ [] := by
  intro blank
  rw [hasContent, ← head?_trim, blank] at content
  simp at content

/-- Lines with one trimmed form are both without content or both with it. -/
theorem hasContent_congr (same : trim line = trim line') : hasContent line = hasContent line' := by
  rw [hasContent, hasContent, ← head?_trim, ← head?_trim, same]

theorem parseLines_skip (skipped : hasContent line = false) :
    parseLines ((line, number) :: rest) = parseLines rest := by
  rw [parseLines, isSkipped_trim, skipped]
  rfl

theorem parseLines_stop (content : hasContent line = true)
    (bad : parseLine (trim line) = .error fault) :
    parseLines ((line, number) :: rest) = .error ⟨number, fault⟩ := by
  rw [parseLines, isSkipped_trim, content, bad]
  rfl

theorem parseLines_read (content : hasContent line = true) (good : parseLine (trim line) = .ok e) :
    parseLines ((line, number) :: rest) = (parseLines rest).map (e :: ·) := by
  rw [parseLines, isSkipped_trim, content, good]
  rfl

theorem parseLines_read_eq_ok (content : hasContent line = true)
    (good : parseLine (trim line) = .ok e) :
    parseLines ((line, number) :: rest) = .ok edges ↔
      ∃ more, parseLines rest = .ok more ∧ edges = e :: more := by
  rw [parseLines_read content good]
  cases parseLines rest with
  | error cause => simp [Except.map]
  | ok more => simp [Except.map, eq_comm]

/-- A line without content or with an edge keeps no error back. -/
theorem parseLines_pass
    (readable : hasContent line = true → ∃ e, parseLine (trim line) = .ok e) :
    parseLines ((line, number) :: rest) = .error cause ↔ parseLines rest = .error cause := by
  cases content : hasContent line with
  | false => rw [parseLines_skip content]
  | true =>
    obtain ⟨e, good⟩ := readable content
    rw [parseLines_read content good]
    cases parseLines rest with
    | error found => simp [Except.map]
    | ok more => simp [Except.map]

/-! ### All lines -/

/-- The edges are those of the lines with content, which can all be read. -/
theorem parseLines_eq_ok_iff :
    parseLines (all.zipIdx first) = .ok edges ↔
      List.Forall₂ (fun line e => parseLine (trim line) = .ok e) (all.filter hasContent) edges := by
  induction all generalizing first edges with
  | nil =>
    rw [List.zipIdx_nil, List.filter_nil, List.forall₂_nil_left_iff, parseLines, Except.ok.injEq]
    exact eq_comm
  | cons line all ih =>
    rw [List.zipIdx_cons]
    cases content : hasContent line with
    | false => rw [parseLines_skip content, ih, List.filter_cons_of_neg (by simp [content])]
    | true =>
      rw [List.filter_cons_of_pos content, List.forall₂_cons_left_iff]
      cases read : parseLine (trim line) with
      | error fault => simp [parseLines_stop content read]
      | ok e =>
        simp only [parseLines_read_eq_ok content read, ih, Except.ok.injEq, existsAndEq, true_and]

/-- The error is that of the first malformed line and has its number. -/
theorem parseLines_eq_error_iff :
    parseLines (all.zipIdx first) = .error ⟨number, fault⟩ ↔
      ∃ before line after, all = before ++ line :: after ∧ number = first + before.length ∧
        hasContent line = true ∧ parseLine (trim line) = .error fault ∧
        ∀ l ∈ before, hasContent l = true → ∃ e, parseLine (trim l) = .ok e := by
  induction all generalizing first with
  | nil => simp [parseLines]
  | cons line all ih =>
    rw [List.zipIdx_cons]
    by_cases readable : hasContent line = true → ∃ e, parseLine (trim line) = .ok e
    · rw [parseLines_pass readable, ih]
      constructor
      · rintro ⟨before, l, after, rfl, rfl, content, bad, good⟩
        exact ⟨line :: before, l, after, rfl, by rw [List.length_cons]; omega, content, bad,
          List.forall_mem_cons.2 ⟨readable, good⟩⟩
      · rintro ⟨_ | ⟨_, before⟩, l, after, split, rfl, content, bad, good⟩
        · cases split
          obtain ⟨e, read⟩ := readable content
          simp [read] at bad
        · cases split
          exact ⟨before, l, after, rfl, by rw [List.length_cons]; omega, content, bad,
            (List.forall_mem_cons.1 good).2⟩
    · obtain ⟨content, unread⟩ := Classical.not_imp.1 readable
      cases found : parseLine (trim line) with
      | ok e => exact absurd ⟨e, found⟩ unread
      | error cause =>
        rw [parseLines_stop content found]
        constructor
        · intro same
          cases same
          exact ⟨[], line, all, rfl, rfl, content, found, by simp⟩
        · rintro ⟨_ | ⟨_, before⟩, l, after, split, rfl, -, bad, good⟩
          · cases split
            cases found.symm.trans bad
            rfl
          · cases split
            exact absurd (List.forall_mem_cons.1 good).1 readable

/-! ### Texts -/

theorem load_of_parse (read : parse text = .ok edges) (nodeCount : Nat) :
    load text nodeCount = (Adjacency.ofEdges nodeCount edges).mapError .graph := by
  rw [load, read]
  rfl

/-- An error of the format does not depend on the number of nodes. -/
theorem load_eq_format_iff :
    load text nodeCount = .error (.format cause) ↔ parse text = .error cause := by
  cases read : parse text with
  | error found =>
    rw [load, read]
    change Except.error (Error.format found) = _ ↔ _
    simp
  | ok edges =>
    rw [load_of_parse read]
    cases Adjacency.ofEdges nodeCount edges with
    | error fault => simp [Except.mapError]
    | ok a => simp [Except.mapError]

end NeighbourGraph.EdgeList
