/-
Which calls report progress.

Between its beginning and its end a phase reports each call that takes the work done to a new
multiple of one step, which is a tenth of the volume without its fraction, and at least one. So
reports come in order, none goes beyond the volume, and there are no more of them than steps.

**Tenths.** A step stands for a tenth of the volume if the volume is a multiple of ten or at most
ten, and for no other volume: there a step is shorter than a tenth. Of eleven units each is
reported, also the first, which is no tenth of them.

**Percents.** A percent is rounded down, as long as a hundred times the volume is a count. From
there on the product stops at the largest count, and the percent stays behind.
-/

import Mathlib.Algebra.Order.Field.Rat
import Mathlib.Data.Rat.Cast.Order
import Mathlib.Tactic.Linarith
import NeighbourGraph.Progress

namespace NeighbourGraph.Progress

open NeighbourGraph.Number

/-! ### Steps and tenths -/

/-- From `before` to `after` the work done gets to a new multiple of a step. -/
def PassesStep (volume before after : ℕ) : Prop :=
  ∃ k : ℕ, before < k * Tracker.step volume ∧ k * Tracker.step volume ≤ after

/-- From `before` to `after` the work done gets to a new multiple of a tenth of the volume. -/
def PassesTenth (volume before after : ℕ) : Prop :=
  ∃ k : ℕ, 1 ≤ k ∧ k ≤ 10 ∧ (before : ℚ) < k * volume / 10 ∧ (k * volume / 10 : ℚ) ≤ after

section

variable {volume before after : ℕ}

theorem step_pos (volume : ℕ) : 0 < Tracker.step volume := by
  unfold Tracker.step
  omega

theorem passesStep_iff : PassesStep volume before after ↔
    before / Tracker.step volume < after / Tracker.step volume := by
  have pos := step_pos volume
  simp only [PassesStep, ← Nat.div_lt_iff_lt_mul pos, ← Nat.le_div_iff_mul_le pos]
  exact ⟨fun ⟨_, less, le⟩ => less.trans_le le, fun less => ⟨_, less, le_rfl⟩⟩

theorem passesTenth_iff : PassesTenth volume before after ↔
    ∃ k : ℕ, 1 ≤ k ∧ k ≤ 10 ∧ 10 * before < k * volume ∧ k * volume ≤ 10 * after := by
  have ten : (0 : ℚ) < 10 := by norm_num
  simp only [PassesTenth, lt_div_iff₀' ten, div_le_iff₀' ten]
  exact_mod_cast Iff.rfl

/-- Of a multiple of ten a step is a tenth. -/
theorem passesStep_iff_of_dvd (tens : 10 ∣ volume) (work : 1 ≤ volume) (le : after ≤ volume) :
    PassesStep volume before after ↔ PassesTenth volume before after := by
  obtain ⟨tenth, rfl⟩ := tens
  have own : Tracker.step (10 * tenth) = tenth := by
    unfold Tracker.step
    omega
  rw [passesTenth_iff, PassesStep, own]
  constructor
  · rintro ⟨k, less, le'⟩
    have first : 1 ≤ k := Nat.pos_of_ne_zero (by rintro rfl; omega)
    have last : k ≤ 10 := Nat.le_of_mul_le_mul_right (le'.trans le) (by omega : 0 < tenth)
    have scaled : k * (10 * tenth) = 10 * (k * tenth) := Nat.mul_left_comm k 10 tenth
    exact ⟨k, first, last, by omega, by omega⟩
  · rintro ⟨k, -, -, less, le'⟩
    have scaled : k * (10 * tenth) = 10 * (k * tenth) := Nat.mul_left_comm k 10 tenth
    exact ⟨k, by omega, by omega⟩

/-- Of ten units or less, each takes the work done to a new tenth. -/
theorem passesStep_iff_of_le_ten (few : volume ≤ 10) (work : 1 ≤ volume) (le : after ≤ volume) :
    PassesStep volume before after ↔ PassesTenth volume before after := by
  have own : Tracker.step volume = 1 := by
    unfold Tracker.step
    omega
  rw [passesStep_iff, own, Nat.div_one, Nat.div_one, passesTenth_iff]
  constructor
  · intro less
    -- The last tenth that is not beyond `after`.
    have reached := Nat.div_mul_le_self (10 * after) volume
    have next := Nat.lt_div_mul_add (a := 10 * after) work
    refine ⟨10 * after / volume, ?_, ?_, by omega, reached⟩
    · exact Nat.pos_of_ne_zero fun isZero => by
        rw [isZero] at next
        omega
    · exact Nat.div_le_of_le_mul (Nat.mul_comm 10 after ▸ Nat.mul_le_mul_right 10 le)
  · rintro ⟨k, -, -, less, le'⟩
    omega

/-- Otherwise the first step is shorter than the first tenth. -/
theorem not_passesTenth_step (many : 10 < volume) (rest : ¬10 ∣ volume) :
    PassesStep volume 0 (volume / 10) ∧ ¬PassesTenth volume 0 (volume / 10) := by
  have own : Tracker.step volume = volume / 10 := by
    unfold Tracker.step
    omega
  constructor
  · rw [PassesStep, own]
    exact ⟨1, by omega, by omega⟩
  · rw [passesTenth_iff]
    rintro ⟨k, first, -, -, le⟩
    have := Nat.le_mul_of_pos_left volume first
    omega

/-- For which volumes a step is as good as a tenth. -/
theorem steps_are_tenths_iff (work : 1 ≤ volume) :
    (∀ before after, after ≤ volume →
      (PassesStep volume before after ↔ PassesTenth volume before after)) ↔
      volume ≤ 10 ∨ 10 ∣ volume := by
  constructor
  · intro same
    by_contra other
    rw [not_or] at other
    obtain ⟨step, tenth⟩ := not_passesTenth_step (by omega) other.2
    exact tenth ((same 0 _ (Nat.div_le_self volume 10)).1 step)
  · rintro (few | tens) before after le
    · exact passesStep_iff_of_le_ten few work le
    · exact passesStep_iff_of_dvd tens work le

theorem steps_le (volume : ℕ) : volume / Tracker.step volume ≤ 19 ∧
    (volume ≤ 10 ∨ 10 ∣ volume → volume / Tracker.step volume ≤ 10) := by
  have pos := step_pos volume
  constructor
  · refine Nat.le_of_lt_succ ((Nat.div_lt_iff_lt_mul pos).2 ?_)
    unfold Tracker.step
    omega
  · intro tens
    refine Nat.le_of_lt_succ ((Nat.div_lt_iff_lt_mul pos).2 ?_)
    unfold Tracker.step
    omega

end

/-! ### Percents -/

/-- The percent that is reported. -/
def percent (volume done : ℕ) : ℕ := min (100 * done) countMax / volume

theorem percents_exact_iff {volume : ℕ} (work : 1 ≤ volume) :
    (∀ done ≤ volume, percent volume done = 100 * done / volume) ↔ 100 * volume ≤ countMax := by
  constructor
  · intro exact
    have all := exact volume le_rfl
    rw [percent, Nat.mul_div_cancel _ work] at all
    have reached := Nat.div_mul_le_self (min (100 * volume) countMax) volume
    rw [all] at reached
    exact reached.trans (Nat.min_le_right _ _)
  · intro count done le
    rw [percent, Nat.min_eq_left ((Nat.mul_le_mul_left 100 le).trans count)]

/-! ### Calls -/

/-- What is reported where the work done grows from `before` to `after`. -/
def passing (volume before after : ℕ) : List Report :=
  if before / Tracker.step volume < after / Tracker.step volume then
    [.passed after volume (percent volume after)]
  else []

namespace Tracker

/-- The reports of each call, when the amounts are done one after the other. -/
def reports (t : Tracker) : List ℕ → List (List Report)
  | [] => []
  | amount :: rest => (t.advance amount).1 :: reports (t.advance amount).2 rest

variable {t : Tracker} {amount : ℕ} {amounts : List ℕ}

/-- As long as the volume is not exceeded, a call adds to what is done. -/
theorem advance_eq (work : 1 ≤ t.volume) (count : t.volume < countLimit)
    (le : t.done + amount ≤ t.volume) :
    t.advance amount =
      (passing t.volume t.done (t.done + amount), { t with done := t.done + amount }) := by
  have further : t.done / step t.volume ≤ (t.done + amount) / step t.volume :=
    Nat.div_le_div_right (Nat.le_add_right _ _)
  have wrapped : (t.done + amount) % countLimit = t.done + amount := Nat.mod_eq_of_lt (by omega)
  have nonzero : t.volume ≠ 0 := by omega
  simp only [advance, Nat.min_eq_left le, wrapped, nonzero, false_or, passing, percent,
    Nat.mul_comm _ 100]
  split
  · next same => rw [if_neg (by omega)]
  · next other => rw [if_pos (by omega)]

theorem reports_cons (work : 1 ≤ t.volume) (count : t.volume < countLimit)
    (le : t.done + amount ≤ t.volume) (rest : List ℕ) :
    t.reports (amount :: rest) = passing t.volume t.done (t.done + amount) ::
      Tracker.reports ⟨t.volume, t.done + amount⟩ rest := by
  rw [reports, advance_eq work count le]

theorem getElem?_reports (work : 1 ≤ t.volume) (count : t.volume < countLimit)
    (le : t.done + amounts.sum ≤ t.volume) {i : ℕ} (hi : i < amounts.length) :
    (t.reports amounts)[i]? = some (passing t.volume (t.done + (amounts.take i).sum)
      (t.done + (amounts.take (i + 1)).sum)) := by
  induction amounts generalizing t i with
  | nil => cases hi
  | cons amount rest ih =>
    rw [List.sum_cons, ← Nat.add_assoc] at le
    rw [reports_cons work count (by omega)]
    cases i with
    | zero => simp
    | succ i =>
      have later := ih (t := ⟨t.volume, t.done + amount⟩) work count le
        (Nat.lt_of_succ_lt_succ hi)
      rw [List.getElem?_cons_succ, later]
      simp only [List.take_succ_cons, List.sum_cons, Nat.add_assoc]

/-- Reports come in order, at most one for each step that is left. -/
theorem exists_done (work : 1 ≤ t.volume) (count : t.volume < countLimit)
    (le : t.done + amounts.sum ≤ t.volume) :
    ∃ ds : List ℕ, (t.reports amounts).flatten =
        ds.map (fun d => .passed d t.volume (percent t.volume d)) ∧
      (t.done :: ds).Pairwise (fun d d' => d / step t.volume < d' / step t.volume) ∧
      (∀ d ∈ ds, d ≤ t.volume) ∧ t.done / step t.volume + ds.length ≤ t.volume / step t.volume := by
  induction amounts generalizing t with
  | nil =>
    rw [List.sum_nil] at le
    exact ⟨[], rfl, List.pairwise_singleton _ _, nofun, Nat.div_le_div_right le⟩
  | cons amount rest ih =>
    rw [List.sum_cons, ← Nat.add_assoc] at le
    obtain ⟨ds, flat, ordered, bounded, few⟩ :=
      ih (t := ⟨t.volume, t.done + amount⟩) work count le
    rw [reports_cons work count (by omega), List.flatten_cons, flat, passing]
    have later := (List.pairwise_cons.1 ordered).1
    split
    · next less =>
      refine ⟨(t.done + amount) :: ds, rfl, ?_, ?_, ?_⟩
      · refine List.pairwise_cons.2 ⟨fun d hd => ?_, ordered⟩
        rcases List.mem_cons.1 hd with rfl | hd
        · exact less
        · exact less.trans (later d hd)
      · intro d hd
        rcases List.mem_cons.1 hd with rfl | hd
        · omega
        · exact bounded d hd
      · rw [List.length_cons]
        dsimp only at few
        omega
    · next same =>
      have further : t.done / step t.volume ≤ (t.done + amount) / step t.volume :=
        Nat.div_le_div_right (Nat.le_add_right _ _)
      refine ⟨ds, rfl, ?_, bounded, ?_⟩
      · refine List.pairwise_cons.2 ⟨fun d hd => ?_, (List.pairwise_cons.1 ordered).2⟩
        exact further.trans_lt (later d hd)
      · dsimp only at few
        omega

end Tracker

/-- **Progress is reported by the step.** A call reports progress exactly if it takes the work done
to a new multiple of a step. What the reports say is done grows strictly and stays within the
volume, so there are no more reports than steps. Steps are as good as tenths exactly for volumes
that are at most ten or multiples of ten, and there are at most ten of them there. Percents are
rounded down exactly where a hundred times the volume is a count. -/
theorem reported_by_step (t : Tracker) (phase : String) (volume : ℕ) (amounts : List ℕ)
    (work : 1 ≤ volume) (count : volume < countLimit) (total : amounts.sum ≤ volume) :
    let reports := (t.start phase volume).2.reports amounts
    let done := fun i => (amounts.take i).sum
    (∀ i < amounts.length,
        (PassesStep volume (done i) (done (i + 1)) → reports[i]? =
          some [.passed (done (i + 1)) volume (percent volume (done (i + 1)))]) ∧
        (¬PassesStep volume (done i) (done (i + 1)) → reports[i]? = some [])) ∧
      (∃ ds : List ℕ,
        reports.flatten = ds.map (fun d => .passed d volume (percent volume d)) ∧
        ds.Pairwise (· < ·) ∧ (∀ d ∈ ds, d ≤ volume) ∧ ds.length ≤ volume / Tracker.step volume) ∧
      ((∀ before after, after ≤ volume →
          (PassesStep volume before after ↔ PassesTenth volume before after)) ↔
        volume ≤ 10 ∨ 10 ∣ volume) ∧
      volume / Tracker.step volume ≤ 19 ∧
      (volume ≤ 10 ∨ 10 ∣ volume → volume / Tracker.step volume ≤ 10) ∧
      ((∀ done ≤ volume, percent volume done = 100 * done / volume) ↔
        100 * volume ≤ countMax) := by
  intro reports done
  have within : 0 + amounts.sum ≤ volume := by omega
  refine ⟨fun i hi => ?_, ?_, steps_are_tenths_iff work, (steps_le volume).1, (steps_le volume).2,
    percents_exact_iff work⟩
  · have call : reports[i]? = _ := Tracker.getElem?_reports (t := ⟨volume, 0⟩) work count within hi
    rw [call, Nat.zero_add, Nat.zero_add, passing, passesStep_iff]
    constructor
    · intro less
      rw [if_pos less]
    · intro same
      rw [if_neg same]
  · obtain ⟨ds, flat, ordered, bounded, few⟩ :=
      Tracker.exists_done (t := ⟨volume, 0⟩) work count within
    refine ⟨ds, flat, (List.pairwise_cons.1 ordered).2.imp fun less => ?_, bounded, ?_⟩
    · exact lt_of_not_ge fun ge => (Nat.div_le_div_right ge).not_gt less
    · rwa [Nat.zero_div, Nat.zero_add] at few

theorem thirtyUnits_reported : 1 ≤ 30 ∧ 30 < countLimit ∧ [2, 2, 5, 21].sum ≤ 30 ∧
    ((Tracker.start {} "join" 30).2.reports [2, 2, 5, 21])[1]? = some [.passed 4 30 13] := by
  have told := reported_by_step {} "join" 30 [2, 2, 5, 21] (by decide) (by decide)
    (by decide)
  exact ⟨by decide, by decide, by decide, (told.1 1 (by decide)).1 ⟨1, by decide, by decide⟩⟩

/-- Eleven units one by one are reported eleven times. The first of them is no tenth of the volume.
Of the largest volume all is done at one percent. -/
theorem elevenUnits_reported_each :
    let reports := (Tracker.start {} "join" 11).2.reports (List.replicate 11 1)
    (reports[0]? = some [.passed 1 11 9] ∧ ¬PassesTenth 11 0 1 ∧ reports.flatten.length = 11) ∧
      (Tracker.start {} "split" countMax).2.reports [countMax] =
        [[.passed countMax countMax 1]] ∧ 100 * countMax / countMax = 100 := by
  refine ⟨⟨by decide, ?_, by decide⟩, by decide +kernel, by decide⟩
  rw [passesTenth_iff]
  rintro ⟨k, first, -, -, le⟩
  omega

end NeighbourGraph.Progress
