/-
An entry is new at most once.

As long as an id stays in a list it stands for one entry, which is handed out as new at most once:
before that it is named by nothing, and from then on it is old. An id that left and comes back is
an entry that was not handed out. What is handed out is named in the order of the list, old and new
apart, and all of the list is named if as many are sampled as it holds.
-/

import Mathlib.Data.List.Nodup
import NeighbourGraph.Proofs.NeighbourList.Calls
import NeighbourGraph.Proofs.Random.Subset

namespace NeighbourGraph.NeighbourList

open NeighbourGraph.Random

variable {l l' : NeighbourList} {call : Call} {reported : Option Parts} {parts : Parts} {id : Nat}

/-! ### One call -/

/-- The entry of `id` was handed out. -/
def Explored (l : NeighbourList) (id : Nat) : Prop :=
  ∃ e ∈ l.entries, e.explored = true ∧ e.id = id

/-- What is still held by the entry it was held by is handed out as it was. -/
theorem explored_iff_of_remains (nodup : l.ids.Nodup)
    (remains : ∀ e ∈ l'.entries, e.id = id → e ∈ l.entries) (held : id ∈ l'.ids) :
    l'.Explored id ↔ l.Explored id := by
  constructor
  · rintro ⟨e, he, ex, same⟩
    exact ⟨e, remains e he same, ex, same⟩
  · rintro ⟨e, he, ex, same⟩
    obtain ⟨e', he', same'⟩ := List.mem_map.1 held
    obtain rfl := List.inj_on_of_nodup_map nodup he (remains e' he' same') (same.trans same'.symm)
    exact ⟨e, he', ex, same⟩

/-- A call that reports nothing leaves the entry of an id that stays as it is. -/
theorem Made.explored_iff (h : Made l call none l') (proper : l.Proper) (held : id ∈ l.ids)
    (held' : id ∈ l'.ids) : l'.Explored id ↔ l.Explored id := by
  refine explored_iff_of_remains proper.nodup (fun e he same => ?_) held'
  cases h with
  | dropped cutoff => exact (l.dropBelow_sublist cutoff).mem he
  | @offered _ n _ _ _ offer =>
    cases offer with
    | stayed => exact he
    | entered standing =>
      rcases mem_place.1 he with rfl | he
      · exact absurd (same ▸ held) (of_standing_ne_refused standing).2.2.1
      · exact l.kept_sublist.mem he

/-- A call that brings an id in brings it in as an entry that was not handed out. -/
theorem Made.not_explored (h : Made l call reported l') (new : id ∉ l.ids) : ¬l'.Explored id := by
  rintro ⟨e, he, ex, rfl⟩
  cases h with
  | dropped cutoff => exact new (List.mem_map_of_mem ((l.dropBelow_sublist cutoff).mem he))
  | handedOut same =>
    exact new (same.ids_eq ▸ List.mem_map_of_mem he)
  | offered _ offer =>
    rcases offer.mem he with he | rfl
    · exact new (List.mem_map_of_mem he)
    · cases ex

theorem Made.handsOut (h : Made l call (some parts) l') :
    HandedOut l.entries l'.entries parts := by
  cases h with
  | handedOut _ given => exact given

/-- The old ids are those handed out before, the new ones are not, and both are from then on. -/
theorem HandedOut.explored_iff (h : HandedOut l.entries l'.entries parts) (proper : l.Proper)
    (id : Nat) :
    (id ∈ parts.old ↔ l.Explored id) ∧ (id ∈ parts.new → ¬l.Explored id) ∧
      (l'.Explored id ↔ l.Explored id ∨ id ∈ parts.new) := by
  have explored : id ∈ parts.old ↔ l.Explored id := h.mem_old
  refine ⟨explored, ?_, ?_, ?_⟩
  · rintro isNew ⟨e, he, ex, same⟩
    obtain ⟨e', he', not, same'⟩ := h.mem_of_mem_new isNew
    obtain rfl := List.inj_on_of_nodup_map proper.nodup he he' (same.trans same'.symm)
    simp [ex] at not
  · rintro ⟨e, he, ex, rfl⟩
    exact (h.mem_old_or_new he ex).imp_left explored.1
  · intro named
    exact h.exists_explored (named.imp_left explored.2)

/-- Old and new ids are apart, and none is named twice. -/
theorem HandedOut.nodup (h : HandedOut l.entries l'.entries parts) (proper : l.Proper) :
    (parts.old ++ parts.new).Nodup := by
  rw [List.nodup_append']
  refine ⟨proper.nodup.sublist h.old_sublist, proper.nodup.sublist h.new_sublist, ?_⟩
  intro id isOld isNew
  obtain ⟨explored, not, -⟩ := h.explored_iff proper id
  exact not isNew (explored.1 isOld)

/-- If as many are sampled as there are to choose from, all entries are named. -/
theorem splitEntries_names {length sampled : Nat} (pos : 0 < length) (all : length ≤ sampled)
    (entries : List Entry) (g : Generator) :
    ∀ e ∈ entries, e.id ∈ (splitEntries length sampled entries g).1.2.old ∨
      e.id ∈ (splitEntries length sampled entries g).1.2.new := by
  induction entries generalizing g with
  | nil => simp
  | cons first rest ih =>
    rw [splitEntries, List.forall_mem_cons]
    cases ex : first.explored with
    | true =>
      refine ⟨.inl (List.mem_cons_self ..), fun e he => ?_⟩
      exact (ih g e he).imp_left (List.mem_cons_of_mem _)
    | false =>
      have drawn : (below length g).1 < sampled := (below_lt pos g).trans_le all
      rw [if_neg Bool.false_ne_true, Draw.bind_apply, if_pos drawn]
      refine ⟨.inr (List.mem_cons_self ..), fun e he => ?_⟩
      exact (ih (below length g).2 e he).imp_right (List.mem_cons_of_mem _)

theorem split_names {sampled : Nat} (all : l.size ≤ sampled) (g : Generator) (held : id ∈ l.ids) :
    id ∈ (l.split sampled g).1.2.old ∨ id ∈ (l.split sampled g).1.2.new := by
  obtain ⟨e, he, rfl⟩ := List.mem_map.1 held
  exact splitEntries_names (List.length_pos_of_mem he) all l.entries g e he

/-! ### Stays -/

/-- What calls report that hand out entries. -/
def reports (l : NeighbourList) : List (Call × Generator) → List Parts
  | [] => []
  | (call, g) :: rest => (l.make call g).1.1.toList ++ (l.make call g).1.2.reports rest

/-- `id` stays in the list during the calls. -/
def Stays (id : Nat) (l : NeighbourList) : List (Call × Generator) → Prop
  | [] => id ∈ l.ids
  | (call, g) :: rest => id ∈ l.ids ∧ (l.make call g).1.2.Stays id rest

instance Stays.decidable (id : Nat) :
    (l : NeighbourList) → (calls : List (Call × Generator)) → Decidable (l.Stays id calls)
  | l, [] => inferInstanceAs (Decidable (id ∈ l.ids))
  | l, (call, g) :: rest =>
    have := decidable id (l.make call g).1.2 rest
    inferInstanceAs (Decidable (id ∈ l.ids ∧ (l.make call g).1.2.Stays id rest))

theorem Stays.mem_ids {calls : List (Call × Generator)} (h : l.Stays id calls) : id ∈ l.ids := by
  cases calls with
  | nil => exact h
  | cons c rest => exact h.1

/-- While an id stays it is old from the report on that names it as new, and is never named as new
after it was handed out. -/
theorem reports_of_stays {calls : List (Call × Generator)} (proper : l.Proper)
    (stays : l.Stays id calls) {earlier later : List Parts} {p : Parts}
    (h : l.reports calls = earlier ++ p :: later) :
    (id ∈ p.old ↔ l.Explored id ∨ ∃ q ∈ earlier, id ∈ q.new) ∧
      (id ∈ p.new → ¬(l.Explored id ∨ ∃ q ∈ earlier, id ∈ q.new)) := by
  induction calls generalizing l earlier with
  | nil => simp [reports] at h
  | cons c rest ih =>
    have made := l.made_make c.1 c.2
    have proper' := made.proper proper
    obtain ⟨held, stays'⟩ := stays
    rw [reports] at h
    generalize (l.make c.1 c.2).1.1 = reported at made h
    generalize (l.make c.1 c.2).1.2 = l' at *
    cases reported with
    | none =>
      rw [← made.explored_iff proper held stays'.mem_ids]
      exact ih proper' stays' h
    | some parts =>
      obtain ⟨old, new, explored⟩ := made.handsOut.explored_iff proper id
      cases earlier with
      | nil =>
        obtain ⟨rfl, -⟩ := List.cons.inj h
        simpa using ⟨old, new⟩
      | cons q earlier =>
        obtain ⟨rfl, rest⟩ := List.cons.inj h
        simpa [explored, or_assoc] using ih proper' stays' rest

/-- An id that came in unexplored is named as new at most once, as old by nothing before that and
by everything after it. -/
theorem reports_of_not_explored {calls : List (Call × Generator)} (proper : l.Proper)
    (new : ¬l.Explored id) (stays : l.Stays id calls) {earlier later : List Parts} {p : Parts}
    (h : l.reports calls = earlier ++ p :: later) :
    (id ∈ p.old ↔ ∃ q ∈ earlier, id ∈ q.new) ∧
      (id ∈ p.new → (∀ q ∈ earlier, id ∉ q.old ∧ id ∉ q.new) ∧ id ∉ p.old ∧
        ∀ q ∈ later, id ∈ q.old ∧ id ∉ q.new) := by
  have named : ∀ {earlier later : List Parts} {p : Parts},
      l.reports calls = earlier ++ p :: later →
      (id ∈ p.old ↔ ∃ q ∈ earlier, id ∈ q.new) ∧ (id ∈ p.new → ¬∃ q ∈ earlier, id ∈ q.new) := by
    intro earlier later p h
    simpa only [new, false_or] using reports_of_stays proper stays h
  refine ⟨(named h).1, fun first => ?_⟩
  have unnamed := (named h).2 first
  refine ⟨fun q hq => ⟨fun old => ?_, fun again => unnamed ⟨q, hq, again⟩⟩,
    fun old => unnamed ((named h).1.1 old), fun q hq => ?_⟩
  · -- Were it old before, something before that would have named it as new.
    obtain ⟨before, between, rfl⟩ := List.append_of_mem hq
    rw [List.append_assoc] at h
    obtain ⟨q', hq', new'⟩ := (named h).1.1 old
    exact unnamed ⟨q', List.mem_append_left _ hq', new'⟩
  · obtain ⟨between, after, rfl⟩ := List.append_of_mem hq
    have here : l.reports calls = (earlier ++ p :: between) ++ q :: after := by simpa using h
    have seen : ∃ r ∈ earlier ++ p :: between, id ∈ r.new := ⟨p, by simp, first⟩
    exact ⟨(named here).1.2 seen, fun again => (named here).2 again seen⟩

/-- **An entry is new at most once.** Whatever calls a list had, handing out entries changes no id,
similarity or position, names old and new ids apart, none twice and in the order of the list, and
names all of them if as many are sampled. An id that comes in is not handed out yet; and as long as
it stays, a report names it as old if and only if an earlier one of its stay named it as new, which
one report at most does. -/
theorem new_at_most_once (owner capacity : Nat) (calls : List (Call × Generator))
    {l : NeighbourList} (called : l = after { owner, capacity } calls) :
    (∀ (sampled : Nat) (g : Generator),
      (l.split sampled g).1.1.neighbours = l.neighbours ∧
      (l.split sampled g).1.2.old.Sublist l.ids ∧
      (l.split sampled g).1.2.new.Sublist l.ids ∧
      ((l.split sampled g).1.2.old ++ (l.split sampled g).1.2.new).Nodup ∧
      (l.size ≤ sampled → ∀ id ∈ l.ids,
        id ∈ (l.split sampled g).1.2.old ∨ id ∈ (l.split sampled g).1.2.new)) ∧
    ∀ (id : Nat) (call : Call) (g : Generator) (stay : List (Call × Generator)),
      id ∉ l.ids → (l.make call g).1.2.Stays id stay →
      (∀ e ∈ (l.make call g).1.2.entries, e.id = id → e.explored = false) ∧
      ∀ earlier p later, (l.make call g).1.2.reports stay = earlier ++ p :: later →
        (id ∈ p.old ↔ ∃ q ∈ earlier, id ∈ q.new) ∧
        (id ∈ p.new → (∀ q ∈ earlier, id ∉ q.old ∧ id ∉ q.new) ∧ id ∉ p.old ∧
          ∀ q ∈ later, id ∈ q.old ∧ id ∉ q.new) := by
  obtain ⟨-, -, proper⟩ := proper_after owner capacity calls
  rw [← called] at proper
  constructor
  · intro sampled g
    have handedOut := l.handedOut_split sampled g
    exact ⟨handedOut.neighbours_eq, handedOut.old_sublist, handedOut.new_sublist,
      handedOut.nodup proper, fun all _ => split_names all g⟩
  · intro id call g stay absent stays
    have made := l.made_make call g
    have fresh := made.not_explored absent
    refine ⟨fun e he same => ?_, fun earlier p later =>
      reports_of_not_explored (made.proper proper) fresh stays⟩
    simpa using fun ex => fresh ⟨e, he, ex, same⟩

/-- Calls that hand out an entry and then let it leave. -/
def leaving : List (Call × Generator) :=
  [(.add 1 0.5 0.0, .ofSeed 1), (.split 1, .ofSeed 2), (.add 2 0.75 0.0, .ofSeed 3),
    (.addKeepingTies 3 0.75, .ofSeed 4)]

/-- Calls that hand out entries and offer others. -/
def staying : List (Call × Generator) :=
  [(.split 1, .ofSeed 2), (.add 2 1.0 0.0, .ofSeed 6), (.split 1, .ofSeed 3), (.split 2, .ofSeed 2),
    (.addKeepingTies 4 0.75, .ofSeed 8), (.split 2, .ofSeed 2)]

/-- A list that an id left after it was handed out, and came back to. -/
def readmitted : NeighbourList :=
  ((after { owner := 0, capacity := 2 } leaving).make (.add 1 0.75 1.0) (.ofSeed 5)).1.2

/-- Back in the list the id is not old before it was named as new again. -/
theorem readmitted_starts_again :
    1 ∉ (after { owner := 0, capacity := 2 } leaving).ids ∧ readmitted.Stays 1 staying ∧
      readmitted.reports staying =
        [{ new := [2] }, { old := [2], new := [1] }, { old := [2, 1] }, { old := [2, 1] }] ∧
      (∀ e ∈ readmitted.entries, e.id = 1 → e.explored = false) ∧
      ∀ q ∈ [{ old := [2, 1] }, ({ old := [2, 1] } : Parts)], 1 ∈ q.old ∧ 1 ∉ q.new := by
  have absent : 1 ∉ (after { owner := 0, capacity := 2 } leaving).ids := by decide +kernel
  have stays : readmitted.Stays 1 staying := by decide +kernel
  have reported : readmitted.reports staying =
      [{ new := [2] }] ++ { old := [2], new := [1] } :: [{ old := [2, 1] }, { old := [2, 1] }] := by
    decide +kernel
  obtain ⟨fresh, named⟩ := (new_at_most_once 0 2 leaving rfl).2 1 (.add 1 0.75 1.0) (.ofSeed 5)
    staying absent stays
  exact ⟨absent, stays, reported, fresh, ((named _ _ _ reported).2 (by decide)).2.2⟩

end NeighbourGraph.NeighbourList
