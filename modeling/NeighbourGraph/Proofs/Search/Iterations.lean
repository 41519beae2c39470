/-
What iterations keep true: every candidate that was scored is settled, and around every node the
entries that count as handed out were compared.

An iteration hands out some entries and then joins them. Entries that were handed out before are
old and were compared then; every pair with a new one is compared now. An entry that comes in on
the way has not been handed out, and whatever an eviction takes from a list stays settled there.
-/

import NeighbourGraph.Proofs.Search.Joins
import NeighbourGraph.Proofs.Search.Loop

namespace NeighbourGraph.Search

open NeighbourGraph.Random

/-- The entries of the list of `v` that count as handed out were tried for `v` and compared with
each other. -/
def Joined (setup : Setup) (v : Nat) (l : NeighbourList) (events : List Event) : Prop :=
  ∀ a ∈ l.entries, a.explored = true → Tries setup events a.id v ∧
    ∀ b ∈ l.entries, b.explored = true → Compares setup events a.id b.id

/-- What holds between two iterations. -/
structure Refined (setup : Setup) (capacity : Nat) (s : State) : Prop where
  sound : Sound setup capacity s
  settled : setup.metric.Honest → Settled s s.log.toList
  joined : ∀ (v : Nat) (l : NeighbourList), s.lists[v]? = some l →
    Joined setup v l s.log.toList

section

variable {setup : Setup} {capacity : Nat} {s t u : State}

theorem Refined.start (setup : Setup) (capacity : Nat) :
    Refined setup capacity (State.start setup.nodeCount capacity) where
  sound := .start setup capacity
  settled _ v c x hx := by simp [State.start] at hx
  joined v l hl := by
    obtain ⟨-, rfl⟩ := getElem?_emptyLists.1 hl
    simp [Joined]

theorem Joined.mono {v : Nat} {l : NeighbourList} {events later : List Event}
    (h : Joined setup v l events) (sub : events ⊆ later) : Joined setup v l later :=
  fun a ha exa => ⟨(h a ha exa).1.mono sub, fun b hb exb => ((h a ha exa).2 b hb exb).mono sub⟩

/-- Offers add no entry that counts as handed out. -/
theorem Joined.follows {v : Nat} {l l' : NeighbourList} {events : List Event}
    (h : Joined setup v l events) (follows : NeighbourList.Follows l l') :
    Joined setup v l' events := by
  intro a ha exa
  have joined := h a (follows.explored a ha exa) exa
  exact ⟨joined.1, fun b hb exb => joined.2 b (follows.explored b hb exb) exb⟩

/-- Entries that a list hands out are joined by the joins around its node. -/
theorem Joined.handOut {v : Nat} {l l' : NeighbourList} {parts : NeighbourList.Parts}
    {before after : List Event} (h : Joined setup v l before)
    (handedOut : NeighbourList.HandedOut l.entries l'.entries parts)
    (joins : Joins setup v parts.old parts.new after) :
    Joined setup v l' (before ++ after) := by
  -- What is old has an entry that was handed out before.
  have old : ∀ id ∈ parts.old, ∃ e ∈ l.entries, e.explored = true ∧ e.id = id :=
    fun id => handedOut.mem_old.1
  have left : before ⊆ before ++ after := List.subset_append_left _ _
  have right : after ⊆ before ++ after := List.subset_append_right _ _
  intro a ha exa
  constructor
  · rcases handedOut.mem_old_or_new ha exa with ha | ha
    · obtain ⟨e, he, exe, eq⟩ := old _ ha
      exact eq ▸ (h e he exe).1.mono left
    · exact (joins _ ha).1.mono right
  · intro b hb exb
    have hb := handedOut.mem_old_or_new hb exb
    rcases handedOut.mem_old_or_new ha exa with ha | ha
    · rcases hb with hb | hb
      · obtain ⟨e, he, exe, eq⟩ := old _ ha
        obtain ⟨e', he', exe', eq'⟩ := old _ hb
        exact eq ▸ eq' ▸ ((h e he exe).2 e' he' exe').mono left
      · exact ((joins _ hb).2 _ (.inl ha)).symm.mono right
    · exact ((joins _ ha).2 _ hb).mono right

/-- What is settled stays so while candidates are offered. -/
theorem Settled.offers {events : List Event} (h : Settled s events)
    (grows : Grows (fun _ => .offers) s t) : Settled t events :=
  fun v c x hx => (h v c x hx).grows grows fun _ _ follows => follows.settles c x

/-- What is settled stays so while entries are handed out. -/
theorem Settled.handsOut {events : List Event} (h : Settled s events)
    (grows : Grows (fun _ => .handsOut) s t) : Settled t events :=
  fun v c x hx => (h v c x hx).grows grows fun _ _ same => same.settles

/-- The list that a node has after a state had its list. -/
theorem Grows.list {change : Nat → Change} (grows : Grows change s t)
    (sound : Sound setup capacity s) (sound' : Sound setup capacity t) {v : Nat}
    {l' : NeighbourList} (hl' : t.lists[v]? = some l') :
    ∃ l, s.lists[v]? = some l ∧ (change v).rel l l' := by
  have hv := (Array.getElem?_eq_some_iff.1 hl').1
  obtain ⟨l, hl, -⟩ := sound.list (sound'.size ▸ hv)
  obtain ⟨l'', hl'', r⟩ := grows.lists v l hl
  obtain rfl : l' = l'' := Option.some.inj (hl'.symm.trans hl'')
  exact ⟨l, hl, r⟩

/-- Offers of candidates leave all entries that count as handed out joined. -/
theorem Refined.offers (h : Refined setup capacity s) (sound : Sound setup capacity t)
    (grows : Grows (fun _ => .offers) s t) {events : List Event}
    (log : t.log.toList = s.log.toList ++ events)
    (settled : setup.metric.Honest → Settled t events) : Refined setup capacity t where
  sound := sound
  settled honest := log ▸ ((h.settled honest).offers grows).append (settled honest)
  joined v l' hl' := by
    obtain ⟨l, hl, follows⟩ := grows.list h.sound sound hl'
    exact log ▸ ((h.joined v l hl).follows follows).mono (List.subset_append_left _ _)

/-- Handing out and joining, one after the other. -/
theorem Refined.handOut_join (h : Refined setup capacity s) {c : Candidates}
    (handsOut : HandsOut setup capacity s t c) (sound : Sound setup capacity u)
    (grows : Grows (fun _ => .offers) t u) {events : List Event}
    (log : u.log.toList = t.log.toList ++ events)
    (settled : setup.metric.Honest → Settled u events)
    (joins : ∀ v < setup.nodeCount, Joins setup v (c.old.of v) (c.new.of v) events) :
    Refined setup capacity u where
  sound := sound
  settled honest := by
    obtain ⟨reports, log', progress⟩ := handsOut.log
    rw [log, log']
    refine ((((h.settled honest).handsOut handsOut.grows).append ?_).offers grows).append
      (settled honest)
    exact settled_of_forall_ne fun v c x hx => nomatch progress _ hx
  joined v l' hl' := by
    obtain ⟨reports, log', -⟩ := handsOut.log
    obtain ⟨l, hl, follows⟩ := grows.list handsOut.sound sound hl'
    have hv := (Array.getElem?_eq_some_iff.1 hl').1
    obtain ⟨l₀, k, hl₀, hk, handedOut⟩ := handsOut.lists v (sound.size ▸ hv)
    obtain rfl : l = k := Option.some.inj (hl.symm.trans hk)
    have joined := (h.joined v l₀ hl₀).handOut handedOut (joins v (sound.size ▸ hv))
    refine (joined.follows follows).mono ?_
    rw [log, log', List.append_assoc]
    intro e he
    simp only [List.mem_append] at *
    tauto

/-- The account of the iterations is nothing that lists depend on. -/
theorem Refined.setRounds (h : Refined setup capacity s) (rounds : Array (Option Tally)) :
    Refined setup capacity { s with rounds } :=
  ⟨⟨h.sound.size, h.sound.lists, h.sound.genuine⟩, h.settled, h.joined⟩

theorem exec_iteration (others : 2 ≤ setup.nodeCount) (h : Refined setup capacity s)
    {turns : Phase → Turns} {sampled : Nat} {splitStream joinStream : Stream} {tally : Tally}
    (run : (iteration setup turns sampled splitStream joinStream).exec s = (.ok tally, t)) :
    Refined setup capacity t := by
  obtain ⟨c, u, w, split, joined, rfl⟩ := exec_iteration_ok.1 run
  have h := h.setRounds (s.rounds.push none)
  have handsOut := exec_candidates h.sound split
  obtain ⟨sound, grows, events, log, settled, joins⟩ :=
    (meets_join handsOut.sound others handsOut.known (turns .join) joinStream sampled).sound_ok
      handsOut.sound joined
  exact (h.handOut_join handsOut sound grows log settled joins).setRounds _

/-- An iteration hands out entries, offers candidates and adds its tally to the account. -/
theorem exec_iteration_grows (others : 2 ≤ setup.nodeCount) (h : Refined setup capacity s)
    {turns : Phase → Turns} {sampled : Nat} {splitStream joinStream : Stream} {tally : Tally}
    (run : (iteration setup turns sampled splitStream joinStream).exec s = (.ok tally, t)) :
    ∃ u w, Grows (fun _ => .handsOut) { s with rounds := s.rounds.push none } u ∧
      Grows (fun _ => .offers) u w ∧ { w with rounds := s.rounds.push (some tally) } = t := by
  obtain ⟨c, u, w, split, joined, rfl⟩ := exec_iteration_ok.1 run
  have handsOut := exec_candidates (h.setRounds (s.rounds.push none)).sound split
  obtain ⟨-, grows, -⟩ :=
    (meets_join handsOut.sound others handsOut.known (turns .join) joinStream sampled).sound_ok
      handsOut.sound joined
  have rounds : w.rounds = s.rounds.push none := grows.rounds.trans handsOut.grows.rounds
  exact ⟨u, w, handsOut.grows, grows, by simp [rounds]⟩

/-- An iteration adds its tally to the account. -/
theorem Tallied.iteration {soFar : Refinement} {tallies : List Tally}
    (tallied : Tallied soFar tallies s) (others : 2 ≤ setup.nodeCount)
    (h : Refined setup capacity s) {turns : Phase → Turns} {sampled : Nat}
    {splitStream joinStream : Stream} {tally : Tally}
    (run : (iteration setup turns sampled splitStream joinStream).exec s = (.ok tally, t))
    (threshold : Nat) : Tallied (soFar.after threshold tally) (tallies ++ [tally]) t := by
  obtain ⟨-, w, -, -, rfl⟩ := exec_iteration_grows others h run
  exact tallied.after rfl

/-- What is settled stays so in an iteration. -/
theorem SettledIn.iteration {v c : Nat} {x : Float} (settled : SettledIn s v c x)
    (others : 2 ≤ setup.nodeCount) (h : Refined setup capacity s) {turns : Phase → Turns}
    {sampled : Nat} {splitStream joinStream : Stream} {tally : Tally}
    (run : (iteration setup turns sampled splitStream joinStream).exec s = (.ok tally, t)) :
    SettledIn t v c x := by
  obtain ⟨u, w, handsOut, offers, rfl⟩ := exec_iteration_grows others h run
  have kept : SettledIn u v c x :=
    SettledIn.grows (s := { s with rounds := s.rounds.push none }) settled handsOut
      fun _ _ same => same.settles
  have still : SettledIn w v c x := kept.grows offers fun _ _ follows => follows.settles c x
  exact still

/-- Whatever holds between two iterations holds after any number of them. -/
theorem refined_kept (others : 2 ≤ setup.nodeCount) (sampled threshold : Nat) :
    KeptByIteration setup sampled threshold fun _ => Refined setup capacity :=
  fun _ _ _ _ _ _ _ _ h => exec_iteration others h

theorem exec_fill {turns : Turns} {stream : Stream} {count : Nat} {tally : Tally}
    (run : (fill setup turns stream count).exec (State.start setup.nodeCount capacity) =
      (.ok tally, u)) : Refined setup capacity u := by
  have start := Refined.start setup capacity
  obtain ⟨sound, grows, events, log, settled, -⟩ :=
    (meets_fill start.sound _ _ _).sound_ok start.sound run
  exact start.offers sound grows log settled

/-- No iteration is over when the lists are filled. -/
theorem tallied_fill {turns : Turns} {stream : Stream} {count : Nat} {tally : Tally}
    (run : (fill setup turns stream count).exec (State.start setup.nodeCount capacity) =
      (.ok tally, u)) : Tallied { pairs := tally.pairs } [] u := by
  have start := (Refined.start setup capacity).sound
  obtain ⟨-, grows, -⟩ := (meets_fill start _ _ _).sound_ok start run
  exact ⟨by simp [grows.rounds, State.start], rfl⟩

theorem exec_refine (others : 2 ≤ setup.nodeCount) {schedule : Schedule} {k : ListSize}
    {limit : Nat} {refinement : Refinement}
    (run : (refine setup schedule k limit).exec (State.start setup.nodeCount capacity) =
      (.ok refinement, t)) : Refined setup capacity t :=
  (exec_refine_ok (refined_kept others _ _) (fun _ _ _ _ => exec_fill) run).1

end

end NeighbourGraph.Search
