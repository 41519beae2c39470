/-
Rows as they are stored: which ones can be read, and what is read.

A row is of use if it is there, has the declared length, and has all its values, which are finite.
Rows are read in order up to the first that is of no use. So what is read of several runs of rows,
one after the other, is what is read of all of them at once.
-/

import Mathlib.Tactic.Common
import NeighbourGraph.Matrix.Basic

namespace NeighbourGraph.FeatureMatrix

variable {width row : Nat} {stored : Option (List (Option Float32))} {features : List Float32}
  {all more : List (Option (List (Option Float32)))} {buffer buffer' : Array Float32}
  {cause : MatrixError}

/-! ### One row -/

/-- A row as it is stored that has all its values. -/
def full (features : List Float32) : Option (List (Option Float32)) := some (features.map some)

/-- Features of the declared number, all finite. -/
structure Useful (width : Nat) (features : List Float32) : Prop where
  length : features.length = width
  finite : ∀ x ∈ features, x.isFinite = true

/-- What is to be said of a stored row that gives no features. -/
inductive Useless (width row : Nat) : Option (List (Option Float32)) → MatrixError → Prop where
  | absent : Useless width row none (.nullRow row)
  | length {elements : List (Option Float32)} (other : elements.length ≠ width) :
    Useless width row (some elements) (.rowLength row width elements.length)
  | value {before : List Float32} {after : List (Option Float32)}
    (length : before.length + 1 + after.length = width) :
    Useless width row (some (before.map some ++ none :: after)) (.nullValue row before.length)
  | nonFinite {before after : List Float32} {x : Float32}
    (length : before.length + 1 + after.length = width)
    (finite : ∀ y ∈ before, y.isFinite = true) (infinite : ¬x.isFinite = true) :
    Useless width row (full (before ++ x :: after)) (.nonFiniteValue row before.length)

/-- Elements are all there, or there is a first one that is not. -/
theorem elements_cases (elements : List (Option Float32)) :
    (∃ features : List Float32, elements = features.map some) ∨
      ∃ (before : List Float32) (after : List (Option Float32)),
        elements = before.map some ++ none :: after := by
  induction elements with
  | nil => exact .inl ⟨[], rfl⟩
  | cons element rest ih =>
    cases element with
    | none => exact .inr ⟨[], rest, rfl⟩
    | some x =>
      rcases ih with ⟨features, rfl⟩ | ⟨before, after, rfl⟩
      · exact .inl ⟨x :: features, rfl⟩
      · exact .inr ⟨x :: before, after, rfl⟩

/-- Features are all finite, or there is a first one that is not. -/
theorem features_cases (features : List Float32) :
    (∀ x ∈ features, x.isFinite = true) ∨
      ∃ before x after, features = before ++ x :: after ∧ (∀ y ∈ before, y.isFinite = true) ∧
        ¬x.isFinite = true := by
  by_cases finite : ∀ x ∈ features, x.isFinite = true
  · exact .inl finite
  · right
    have found : (features.find? fun x => !x.isFinite).isSome = true := by
      simpa [List.find?_isSome] using finite
    obtain ⟨x, found⟩ := Option.isSome_iff_exists.1 found
    obtain ⟨infinite, before, after, rfl, passed⟩ := List.find?_eq_some_iff_append.1 found
    exact ⟨before, x, after, rfl, by simpa using passed, by simpa using infinite⟩

/-- Every stored row is of use, or something is to be said of it. -/
theorem useful_or_useless (width row : Nat) (stored : Option (List (Option Float32))) :
    (∃ features, stored = full features ∧ Useful width features) ∨
      ∃ cause, Useless width row stored cause := by
  cases stored with
  | none => exact .inr ⟨_, .absent⟩
  | some elements =>
    by_cases length : elements.length = width
    · rcases elements_cases elements with ⟨features, rfl⟩ | ⟨before, after, rfl⟩
      · rcases features_cases features with finite | ⟨before, x, after, rfl, finite, infinite⟩
        · exact .inl ⟨features, rfl, by simpa using length, finite⟩
        · exact .inr ⟨_, .nonFinite (by simp at length; omega) finite infinite⟩
      · exact .inr ⟨_, .value (by simp at length; omega)⟩
    · exact .inr ⟨_, .length length⟩

theorem readRow_useful (useful : Useful width features) :
    readRow width row (full features) = .ok features := by
  have there : (features.map some).findIdx? Option.isNone = none := by simp
  have all : features.findIdx? (fun x => !x.isFinite) = none := by simpa using useful.finite
  simp [readRow, full, there, all, useful.length]

theorem readRow_useless (useless : Useless width row stored cause) :
    readRow width row stored = .error cause := by
  cases useless with
  | absent => rfl
  | length other => simp only [readRow, if_pos other]
  | @value before after length =>
    have gap : (before.map some ++ none :: after).findIdx? Option.isNone = some before.length := by
      have there : (before.map some).findIdx? Option.isNone = none := by simp
      simp [List.findIdx?_append, List.findIdx?_cons, there]
    simp only [readRow, gap]
    rw [if_neg (by simp; omega)]
  | @nonFinite before after x length finite infinite =>
    have there : ((before ++ x :: after).map some).findIdx? Option.isNone = none := by simp
    have first : (before ++ x :: after).findIdx? (fun x => !x.isFinite) = some before.length := by
      have allFinite : before.findIdx? (fun x => !x.isFinite) = none := by simpa using finite
      simp [List.findIdx?_append, List.findIdx?_cons, allFinite, infinite]
    simp only [readRow, full, there]
    rw [if_neg (by simp; omega)]
    simp [first]

/-! ### Many rows -/

theorem readRows_go (useful : Useful width features) :
    readRows width row (full features :: all) buffer =
      readRows width (row + 1) all (buffer ++ features) := by
  rw [readRows, readRow_useful useful]
  rfl

theorem readRows_stop (useless : Useless width row stored cause) :
    readRows width row (stored :: all) buffer = .error cause := by
  rw [readRows, readRow_useless useless]
  rfl

/-- Rows can be read in two goes. -/
theorem readRows_append :
    readRows width row (all ++ more) buffer =
      readRows width row all buffer >>= readRows width (row + all.length) more := by
  induction all generalizing row buffer with
  | nil => rfl
  | cons stored all ih =>
    rw [List.cons_append]
    rcases useful_or_useless width row stored with ⟨features, rfl, useful⟩ | ⟨cause, useless⟩
    · rw [readRows_go useful, readRows_go useful, ih, List.length_cons, Nat.add_right_comm,
        Nat.add_assoc]
    · rw [readRows_stop useless, readRows_stop useless]
      rfl

/-- If all rows are of use, their features go behind the values of the buffer. -/
theorem readRows_eq_ok (read : readRows width row all buffer = .ok buffer') :
    ∃ rows : List (List Float32), all = rows.map full ∧ (∀ features ∈ rows, Useful width features) ∧
      buffer'.toList = buffer.toList ++ rows.flatten := by
  induction all generalizing row buffer with
  | nil =>
    cases read
    exact ⟨[], rfl, by simp, by simp⟩
  | cons stored all ih =>
    rcases useful_or_useless width row stored with ⟨features, rfl, useful⟩ | ⟨cause, useless⟩
    · rw [readRows_go useful] at read
      obtain ⟨rows, rfl, each, made⟩ := ih read
      exact ⟨features :: rows, rfl, List.forall_mem_cons.2 ⟨useful, each⟩, by simp [made]⟩
    · rw [readRows_stop useless] at read
      cases read

/-- Reading fails at the first row of no use. -/
theorem readRows_eq_error (read : readRows width row all buffer = .error cause) :
    ∃ (before : List (List Float32)) (stored : Option (List (Option Float32)))
        (after : List (Option (List (Option Float32)))),
      all = before.map full ++ stored :: after ∧
      (∀ features ∈ before, Useful width features) ∧
      Useless width (row + before.length) stored cause := by
  induction all generalizing row buffer with
  | nil => cases read
  | cons stored all ih =>
    rcases useful_or_useless width row stored with ⟨features, rfl, useful⟩ | ⟨found, useless⟩
    · rw [readRows_go useful] at read
      obtain ⟨before, bad, after, rfl, good, useless⟩ := ih read
      refine ⟨features :: before, bad, after, rfl, List.forall_mem_cons.2 ⟨useful, good⟩, ?_⟩
      rwa [List.length_cons, Nat.add_comm before.length, ← Nat.add_assoc]
    · rw [readRows_stop useless] at read
      cases read
      exact ⟨[], stored, all, rfl, by simp, useless⟩

end NeighbourGraph.FeatureMatrix
