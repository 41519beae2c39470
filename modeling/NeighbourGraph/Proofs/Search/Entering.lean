/-
Searches that offer candidates where there are no ties.

Without ties no offer takes a random word. So the candidates that the work on a node considers are
settled by its generator alone: whatever the lists hold and whatever other tasks do to them, it
asks for the same scores and takes the same words. `Fixed` says so of work that may depend on
answers which make no difference to it. What does depend on the lists is who comes in, and
`Enters` tells how the lists come to hold what they hold: whoever came in was not settled before.
-/

import NeighbourGraph.Proofs.Convergence
import NeighbourGraph.Proofs.TieFree

namespace NeighbourGraph

open NeighbourGraph.Random NeighbourGraph.Search

/-- All pairs of nodes have scores, the search is never told to stop, and there are no ties. -/
structure Setup.Decisive (setup : Setup) : Prop where
  honest : setup.metric.Honest
  tieFree : setup.TieFree
  scores : ∀ a < setup.nodeCount, ∀ b < setup.nodeCount, a ≠ b →
    ∃ x, setup.metric.score a b = .ok x
  goesOn : ∀ log, setup.stopped log = false

/-- The sampler has candidates for every node. -/
def Setup.Sampled (setup : Setup) (stream : Stream) (count : Nat) : Prop :=
  ∀ v < setup.nodeCount, ∃ candidates, (Sampler.sample setup.config.sampler setup.graph v count
    (stream.generator v)).1 = .ok candidates

/-- The parts of the search that a join phase has. -/
def Setup.joinParts (setup : Setup) (part : Origin) : Prop :=
  part = .joining ∨ setup.config.randomJoins ≠ 0

namespace Search

section

variable {setup : Setup} {capacity : Nat} {s t u : State}

/-! ### Who comes in -/

/-- What came into the lists between two states: candidates that were not settled in front of it
and are afterwards. All other entries were there before. -/
structure Enters (setup : Setup) (entered : List (Nat × Nat)) (s t : State) : Prop where
  log : entrances t.log = entrances s.log ++ entered
  new : ∀ v c, (v, c) ∈ entered →
    ∃ x, setup.Genuine v c x ∧ ¬SettledIn s v c x ∧ SettledIn t v c x
  lists : ∀ v l l', s.lists[v]? = some l → t.lists[v]? = some l' →
    ∀ e ∈ l'.entries, e ∈ l.entries ∨ (v, e.id) ∈ entered

theorem enters_nil (log : entrances t.log = entrances s.log) (lists : t.lists = s.lists) :
    Enters setup [] s t where
  log := by rw [log, List.append_nil]
  new := by simp
  lists v l l' hl hl' e he := by
    obtain rfl : l = l' := Option.some.inj (hl.symm.trans (lists ▸ hl'))
    exact .inl he

theorem Enters.trans {entered later : List (Nat × Nat)} (h : Enters setup entered s t)
    (h' : Enters setup later t u) (grows : Grows (fun _ => .offers) s t)
    (grows' : Grows (fun _ => .offers) t u) : Enters setup (entered ++ later) s u where
  log := by rw [h'.log, h.log, List.append_assoc]
  new v c hc := by
    have settles : ∀ (x : Float) (l l' : NeighbourList), Change.offers.rel l l' →
        l.Settles c x → l'.Settles c x := fun x _ _ follows => follows.settles c x
    rcases List.mem_append.1 hc with hc | hc
    · obtain ⟨x, genuine, before, after⟩ := h.new v c hc
      exact ⟨x, genuine, before, after.grows grows' (settles x)⟩
    · obtain ⟨x, genuine, before, after⟩ := h'.new v c hc
      exact ⟨x, genuine, fun settled => before (settled.grows grows (settles x)), after⟩
  lists v l l'' hl hl'' e he := by
    obtain ⟨l', hl', -⟩ := grows.lists v l hl
    rcases h'.lists v l' l'' hl' hl'' e he with he | came
    · exact (h.lists v l l' hl hl' e he).imp_right fun came => List.mem_append_left _ came
    · exact .inr (List.mem_append_right _ came)

/-- The contract of searches that offer candidates and never fail. -/
def entering (setup : Setup) (capacity : Nat) : Contract where
  rely s t := Sound setup capacity s → Sound setup capacity t ∧ Grows (fun _ => .offers) s t
  guarantee s t := Sound setup capacity s → Sound setup capacity t ∧
    Grows (fun _ => .offers) s t ∧ ∃ entered, Enters setup entered s t
  fails _ := False
  rely_refl s sound := ⟨sound, .refl _ s⟩
  rely_trans h h' sound :=
    have ⟨sound, first⟩ := h sound
    have ⟨sound, second⟩ := h' sound
    ⟨sound, first.trans second⟩
  rely_notes noted sound := ⟨sound.notes noted, .notes _ noted⟩
  still s sound := ⟨sound, .refl _ s, [], enters_nil rfl rfl⟩
  notes noted sound := by
    refine ⟨sound.notes noted, .notes _ noted, [], ?_⟩
    cases noted with
    | report he =>
      refine enters_nil ?_ rfl
      rw [entrances_record, Event.entered?_of_isProgress he, Option.toList_none, List.append_nil]
    | visit => exact enters_nil rfl rfl

theorem entering_self : (entering setup capacity).Tolerates (entering setup capacity) :=
  fun _ _ h sound => ⟨(h sound).1, (h sound).2.1⟩

theorem entering_heeds (goesOn : ∀ log, setup.stopped log = false) :
    (entering setup capacity).Heeds setup :=
  fun log _ told => by simp [goesOn log] at told

/-! ### What is considered -/

/-- The candidates that were considered are those of the script, and whoever came in did so in one
of the parts of the search. -/
structure Plays (parts : Origin → Prop) (script : List (Nat × Nat × Float))
    (events : List Event) : Prop where
  considered : ∀ p, p ∈ events.filterMap Event.considered? ↔ p ∈ script
  entered : ∀ origin v c, Event.entered origin v c ∈ events → parts origin

variable {parts : Origin → Prop}

theorem Plays.nil : Plays parts [] [] := ⟨by simp, by simp⟩

theorem Plays.append {script script' : List (Nat × Nat × Float)} {events later : List Event}
    (h : Plays parts script events) (h' : Plays parts script' later) :
    Plays parts (script ++ script') (events ++ later) where
  considered p := by
    rw [List.filterMap_append, List.mem_append, List.mem_append, h.considered, h'.considered]
  entered origin v c hc :=
    (List.mem_append.1 hc).elim (h.entered origin v c) (h'.entered origin v c)

/-- An event by itself. -/
theorem plays_singleton {e : Event} (part : ∀ origin v c, e = .entered origin v c → parts origin) :
    Plays parts e.considered?.toList [e] where
  considered p := by cases h : e.considered? <;> simp [h]
  entered origin v c hc := part origin v c (List.mem_singleton.1 hc).symm

/-- Phases and their progress are no candidates. -/
theorem plays_report {e : Event} (he : e.isProgress = true) : Plays parts [] [e] := by
  have quiet : e.considered? = none := by
    cases e with
    | started | advanced | ended => rfl
    | offered | considered | scored | entered => cases he
  have alone : Plays parts e.considered?.toList [e] := plays_singleton fun part v c eq => by
    simp [eq, Event.isProgress] at he
  rwa [quiet] at alone

/-! ### What a phase takes in -/

/-- What a search that offered candidates made of a state. -/
structure Intake (setup : Setup) (capacity : Nat) (parts : Origin → Prop)
    (script : List (Nat × Nat × Float)) (events : List Event) (s t : State) : Prop where
  sound : Sound setup capacity t
  grows : Grows (fun _ => .offers) s t
  enters : Enters setup (events.filterMap Event.entered?) s t
  log : t.log.toList = s.log.toList ++ events
  plays : Plays parts script events

/-- Carried out alone, a search that offers candidates and never fails comes to its end. -/
theorem Meets.exec_intake {α : Type} {p : Search α} {script : List (Nat × Nat × Float)}
    (h : Meets (entering setup capacity) p (fun _ events _ => Plays parts script events) s)
    (sound : Sound setup capacity s) :
    ∃ a t events, p.exec s = (.ok a, t) ∧ Intake setup capacity parts script events s t := by
  have kept := h.exec_guarantee (r := fun s t => Sound setup capacity s →
    Sound setup capacity t ∧ Grows (fun _ => .offers) s t ∧ ∃ entered, Enters setup entered s t)
    (fun s sound => ⟨sound, .refl _ s, [], enters_nil rfl rfl⟩) ?_ (fun _ _ => id) sound
  · obtain ⟨sound', grows, entered, enters⟩ := kept
    cases run : p.exec s with
    | mk r t =>
      rw [run] at sound' grows enters
      cases r with
      | error e => exact (h.exec_error run).elim
      | ok a =>
        obtain ⟨events, log, plays⟩ := h.exec run
        have logged : entrances t.log = entrances s.log ++ events.filterMap Event.entered? := by
          rw [entrances, log, List.filterMap_append]
          rfl
        obtain rfl := List.append_cancel_left (enters.log.symm.trans logged)
        exact ⟨a, t, events, rfl, sound', grows, enters, log, plays⟩
  · intro s t u first second sound
    obtain ⟨sound, grows, entered, enters⟩ := first sound
    obtain ⟨sound, grows', later, enters'⟩ := second sound
    exact ⟨sound, grows.trans grows', _, enters.trans enters' grows grows'⟩

end

section

variable {setup : Setup} {capacity : Nat} {parts : Origin → Prop} {ι α β : Type}
  {known : List Event}
  {g g' g'' : Generator} {script script' : List (Nat × Nat × Float)} {w : Work α} {s : State}

/-- From every sound state in which `known` was logged, the work considers the candidates of the
script and leaves the generator `g'`. -/
def WorkPlays (setup : Setup) (capacity : Nat) (parts : Origin → Prop) (known : List Event)
    {α : Type} (w : Work α) (g g' : Generator) (script : List (Nat × Nat × Float)) : Prop :=
  ∀ s, Sound setup capacity s → (∀ e ∈ known, e ∈ s.log) →
    Meets (entering setup capacity) (w g)
      (fun r events _ => r.2 = g' ∧ Plays parts script events) s

theorem workPlays_pure {a : α} : WorkPlays setup capacity parts known (pure a : Work α) g g [] :=
  fun _ _ _ _ _ => ⟨rfl, .nil⟩

theorem WorkPlays.mono {later : List Event} (h : WorkPlays setup capacity parts known w g g' script)
    (sub : known ⊆ later) : WorkPlays setup capacity parts later w g g' script :=
  fun s sound logged => h s sound fun e he => logged e (sub he)

theorem WorkPlays.bind {f : α → Work β} (h : WorkPlays setup capacity parts known w g g' script)
    (rest : ∀ a, WorkPlays setup capacity parts known (f a) g' g'' script') :
    WorkPlays setup capacity parts known (w >>= f) g g'' (script ++ script') := by
  intro s sound logged
  refine Meets.bind (((h s sound logged).frame
    (F := fun t => Sound setup capacity t ∧ ∀ e ∈ known, e ∈ t.log) (.refl _) ⟨sound, logged⟩
    ?_ ?_).imp ?_)
  · rintro t u ⟨sound, logged⟩ r
    exact ⟨(r sound).1, fun e he => (r sound).2.log e (logged e he)⟩
  · rintro t u ⟨sound, logged⟩ allowed
    exact ⟨(allowed sound).1, fun e he => (allowed sound).2.1.log e (logged e he)⟩
  · rintro ⟨a, _⟩ events t ⟨⟨sound, logged⟩, rfl, plays⟩
    exact (rest a t sound logged).imp fun _ later _ h => ⟨h.1, plays.append h.2⟩

/-- An event that is logged is known from then on. -/
theorem WorkPlays.afterRecord {e : Event}
    (genuine : ∀ v c x, e = .considered v c x → setup.Genuine v c x)
    (outside : e.entered? = none)
    (h : WorkPlays setup capacity parts (e :: known) w g g' script) :
    WorkPlays setup capacity parts known (do record e; w) g g'
      (e.considered?.toList ++ script) := by
  intro s sound logged t r
  have sound' := ((r sound).1).record genuine
  refine ⟨fun sound => ⟨sound.record genuine, .record _ t e, [], ?_⟩, [e],
    by simp [State.record], (h (t.record e) sound' ?_).imp fun _ later _ h =>
      ⟨h.1, (plays_singleton fun part v c eq => ?_).append h.2⟩⟩
  · refine enters_nil ?_ rfl
    rw [entrances_record, outside, Option.toList_none, List.append_nil]
  · intro e' he'
    rcases List.mem_cons.1 he' with rfl | he'
    · exact Array.mem_push.2 (.inr rfl)
    · exact Array.mem_push.2 (.inl ((r sound).2.log e' (logged e' he')))
  · simp [eq, Event.entered?] at outside

/-- A score that exists. -/
theorem WorkPlays.afterScore {f : Float → Work α} {left right : Nat} {x : Float}
    (scored : setup.metric.score left right = .ok x) (origin : Origin)
    (h : WorkPlays setup capacity parts known (f x) g g' script) :
    WorkPlays setup capacity parts known (do let x ← score setup origin left right; f x) g g'
      script := by
  have asked : (do let x ← score setup origin left right; f x) =
      (do record (.scored origin left right); f x : Work α) := by
    funext g
    simp only [score, scored]
    rfl
  rw [asked]
  exact WorkPlays.afterRecord (e := .scored origin left right) (by simp) rfl
    (h.mono (List.subset_cons_self _ _))

/-- Without ties a candidate is accepted or refused, and no random word is taken. -/
theorem Sound.standing_ne_tied {l : NeighbourList} {v c : Nat} {x : Float}
    (sound : Sound setup capacity s) (tieFree : setup.TieFree) (hl : s.lists[v]? = some l)
    (genuine : setup.Genuine v c x) : l.standing c x ≠ .tied := by
  intro tied
  unfold NeighbourList.standing at tied
  split at tied
  · cases tied
  · next new =>
    split at tied
    · cases tied
    · cases hlast : l.entries.getLast? with
      | none => simp [hlast] at tied
      | some last =>
        simp only [hlast] at tied
        split at tied
        · cases tied
        · split at tied
          · next tie =>
            have mem := List.mem_of_getLast? hlast
            have same := tieFree v _ _ _ _ genuine (sound.genuine_of_mem hl mem) tie
            rw [not_or, not_or, NeighbourList.holds_iff] at new
            exact new.2.2 (same ▸ List.mem_map_of_mem mem)
          · cases tied

/-- A candidate that was accepted comes in. -/
theorem enters_place {l : NeighbourList} {v c : Nat} {x : Float} {origin : Origin}
    (hl : s.lists[v]? = some l) (genuine : setup.Genuine v c x)
    (accepted : l.standing c x = .accepted) :
    Enters setup [(v, c)] s
      (State.record { s with lists := s.lists.setIfInBounds v (l.place c x) }
        (.entered origin v c)) where
  log := entrances_record _ _
  new v' c' hc := by
    obtain ⟨rfl, rfl⟩ := Prod.mk.inj (List.mem_singleton.1 hc)
    refine ⟨x, genuine, ?_, l.place c' x, ?_, .inl ⟨{ id := c', similarity := x }, ?_, rfl, ?_⟩⟩
    · rintro ⟨k, hk, settled⟩
      obtain rfl : l = k := Option.some.inj (hl.symm.trans hk)
      exact settled.standing_ne_accepted accepted
    · simp [State.record, (Array.getElem?_eq_some_iff.1 hl).1]
    · exact NeighbourList.mem_place.2 (.inl rfl)
    · exact Number.le_refl genuine.isFinite
  lists w k k' hk hk' e he := by
    by_cases eq : v = w
    · subst eq
      obtain rfl : l = k := Option.some.inj (hl.symm.trans hk)
      obtain rfl : l.place c x = k' := by
        simpa [State.record, (Array.getElem?_eq_some_iff.1 hl).1] using hk'
      rcases NeighbourList.mem_place.1 he with rfl | he
      · exact .inr (List.mem_singleton.2 rfl)
      · exact .inl (l.kept_sublist.mem he)
    · obtain rfl : k = k' := by
        have : s.lists[w]? = some k' := by simpa [State.record, eq] using hk'
        exact Option.some.inj (hk.symm.trans this)
      exact .inl he

/-- An offer takes no random word. -/
theorem workPlays_offer (tieFree : setup.TieFree) {origin : Origin} {v c : Nat} {x : Float}
    (part : parts origin)
    (considered : .considered v c x ∈ known) :
    WorkPlays setup capacity parts known (offer setup origin v c x) g g [] := by
  intro s sound logged
  apply meets_atomic
  intro t r
  obtain ⟨sound, grows⟩ := r sound
  have logged := grows.log _ (logged _ considered)
  have genuine := sound.genuine v c x logged
  obtain ⟨l, hl, soundFor⟩ := sound.list genuine.node_lt
  have untied := sound.standing_ne_tied tieFree hl genuine
  simp only [State.withList, hl, NeighbourList.add]
  cases standing : l.standing c x with
  | tied => exact absurd standing untied
  | refused =>
    simp only [Draw.pure_apply, State.countEntered, State.setList_self hl]
    exact ⟨(entering setup capacity).still t, [], by simp, fun _ _ => ⟨trivial, .nil⟩⟩
  | accepted =>
    simp only [Draw.pure_apply, State.countEntered]
    have offered : NeighbourList.Offered l c x true (l.place c x) := .entered (by simp [standing])
    have sound' := sound.setList (offered.soundFor soundFor logged genuine.isFinite)
    have grows' : Grows (fun _ => .offers) t
        { t with lists := t.lists.setIfInBounds v (l.place c x) } :=
      .setList hl (offered.follows soundFor.wellFormed)
    refine ⟨fun _ => ⟨sound'.record (by simp), grows'.trans (.record _ _ _), [(v, c)],
      enters_place hl genuine standing⟩, [.entered origin v c], by simp [State.record], ?_⟩
    refine fun _ _ => ⟨trivial, plays_singleton (e := .entered origin v c) ?_⟩
    rintro _ _ _ ⟨⟩
    exact part

/-! ### Work that is settled by its generator -/

/-- What the work considers and the words it takes are settled by its generator, whatever the
lists hold and whichever work of the family it is. -/
def Fixed (setup : Setup) (capacity : Nat) (parts : Origin → Prop) {ι α : Type}
    (w : ι → Work α) : Prop :=
  ∀ g, ∃ g' script, ∀ i, WorkPlays setup capacity parts [] (w i) g g' script

theorem fixed_pure (a : ι → α) : Fixed setup capacity parts fun i => (pure (a i) : Work α) :=
  fun g => ⟨g, [], fun _ => workPlays_pure⟩

/-- Work goes on after work, and the answer makes no difference to what it considers. -/
theorem Fixed.bind {w : ι → Work α} {f : ι → α → Work β} (h : Fixed setup capacity parts w)
    (rest : Fixed setup capacity parts fun i : ι × α => f i.1 i.2) :
    Fixed setup capacity parts fun i => w i >>= f i := by
  intro g
  obtain ⟨g', script, first⟩ := h g
  obtain ⟨g'', script', later⟩ := rest g'
  exact ⟨g'', script ++ script', fun i => (first i).bind fun a => later (i, a)⟩

/-- Work goes on after random words, which are the same whatever the lists hold. -/
theorem Fixed.afterDraw {d : Draw α} {f : ι → α → Work β} {P : α → Prop}
    (answers : ∀ g, P (d g).1) (rest : ∀ a, P a → Fixed setup capacity parts fun i => f i a) :
    Fixed setup capacity parts fun i => draw d >>= f i :=
  fun g => rest (d g).1 (answers g) (d g).2

theorem fixed_mapM {κ : Type} {f : κ → Work α} {ks : List κ}
    (h : ∀ k ∈ ks, ∀ ι : Type, Fixed setup capacity parts fun _ : ι => f k) :
    Fixed setup capacity parts fun _ : ι => ks.mapM f := by
  induction ks generalizing ι with
  | nil => exact fixed_pure _
  | cons k ks ih =>
    simp only [List.mapM_cons]
    exact (h k (by simp) ι).bind ((ih fun j hj => h j (by simp [hj])).bind (fixed_pure _))

theorem fixed_total {κ : Type} {f : κ → Work Tally} {ks : List κ}
    (h : ∀ k ∈ ks, ∀ ι : Type, Fixed setup capacity parts fun _ : ι => f k) :
    Fixed setup capacity parts fun _ : ι => (do return Tally.total (← ks.mapM f) : Work Tally) :=
  (fixed_mapM h).bind (fixed_pure _)

/-! ### Nodes -/

theorem fixed_consider (decisive : setup.Decisive) {origin : Origin} {v c : Nat}
    (part : parts origin) (hv : v < setup.nodeCount)
    (other : Sampler.IsOther setup.nodeCount v c) (allowed : setup.excluded v c = false) :
    Fixed setup capacity parts fun _ : ι => consider setup origin v c := by
  obtain ⟨x, scored⟩ := decisive.scores v hv c other.1 other.2.symm
  have genuine : setup.Genuine v c x := ⟨hv, other, .inl ⟨allowed, scored⟩⟩
  refine fun g => ⟨g, _, fun _ => WorkPlays.afterScore scored origin
    (WorkPlays.afterRecord (e := .considered v c x) ?_ rfl
      ((workPlays_offer decisive.tieFree part (by simp)).bind fun _ => workPlays_pure))⟩
  rintro _ _ _ ⟨⟩
  exact genuine

theorem fixed_tryCandidate (decisive : setup.Decisive) (part : parts .sampling)
    {node candidate : Nat} (hn : node < setup.nodeCount)
    (other : Sampler.IsOther setup.nodeCount node candidate) :
    Fixed setup capacity parts fun _ : ι => tryCandidate setup node candidate := by
  unfold tryCandidate
  split
  · exact fixed_pure _
  · next allowed => exact fixed_consider decisive part hn other (by simpa using allowed)

theorem fixed_joinOne (decisive : setup.Decisive) {origin : Origin} {a b : Nat}
    (part : parts origin) (ha : a < setup.nodeCount)
    (hb : b < setup.nodeCount) :
    Fixed setup capacity parts fun _ : ι => joinOne setup origin a b := by
  unfold joinOne
  split
  · exact fixed_pure _
  · next compared =>
    simp only [Bool.or_eq_true, decide_eq_true_eq, not_or, Bool.not_eq_true] at compared
    exact fixed_consider decisive part ha ⟨hb, fun eq => compared.1 eq.symm⟩ compared.2

theorem fixed_joinBoth (decisive : setup.Decisive) (part : parts .joining) {a b : Nat}
    (ha : a < setup.nodeCount) (hb : b < setup.nodeCount) (ne : a ≠ b)
    (symm : setup.metric.symmetric = true) :
    Fixed setup capacity parts fun _ : ι => joinBoth setup a b := by
  unfold joinBoth
  split
  · exact fixed_pure _
  · next allowed =>
    obtain ⟨x, scored⟩ := decisive.scores a ha b hb ne
    have allowed : setup.Admits a b x := ⟨by simpa using allowed, scored⟩
    refine fun g => ⟨g, _, fun _ => WorkPlays.afterScore scored .pairing
      (WorkPlays.afterRecord (e := .considered a b x) ?_ rfl
        (WorkPlays.afterRecord (e := .considered b a x) ?_ rfl
          ((workPlays_offer decisive.tieFree part (by simp)).bind fun _ =>
            (workPlays_offer decisive.tieFree part (by simp)).bind fun _ =>
              workPlays_pure)))⟩
    · rintro _ _ _ ⟨⟩
      exact ⟨ha, ⟨hb, ne.symm⟩, .inl allowed⟩
    · rintro _ _ _ ⟨⟩
      exact ⟨hb, ⟨ha, ne⟩, .inr ⟨symm, allowed⟩⟩

theorem fixed_joinPair (decisive : setup.Decisive) (part : parts .joining) {a b : Nat}
    (ha : a < setup.nodeCount) (hb : b < setup.nodeCount) :
    Fixed setup capacity parts fun _ : ι => joinPair setup a b := by
  unfold joinPair
  split
  · exact fixed_pure _
  · next ne =>
    split
    · next symm => exact fixed_joinBoth decisive part ha hb ne symm
    · exact (fixed_joinOne decisive part ha hb).bind
        ((fixed_joinOne decisive part hb ha).bind (fixed_pure _))

theorem fixed_joinWith (decisive : setup.Decisive) (part : parts .joining) {first : Nat}
    {others : List Nat} (hf : first < setup.nodeCount) (ho : ∀ x ∈ others, x < setup.nodeCount) :
    Fixed setup capacity parts fun _ : ι => joinWith setup first others :=
  fixed_total fun x hx _ => fixed_joinPair decisive part hf (ho x hx)

theorem fixed_joinNew (decisive : setup.Decisive) (part : parts .joining) {node : Nat}
    {old new : List Nat} (hn : node < setup.nodeCount) (hold : ∀ x ∈ old, x < setup.nodeCount)
    (hnew : ∀ x ∈ new, x < setup.nodeCount) :
    Fixed setup capacity parts fun _ : ι => joinNew setup node old new := by
  induction new generalizing ι with
  | nil => exact fixed_pure _
  | cons first rest ih =>
    have hf := hnew first (by simp)
    have hr : ∀ x ∈ rest, x < setup.nodeCount := fun x hx => hnew x (by simp [hx])
    exact (fixed_joinOne decisive part hf hn).bind ((fixed_joinWith decisive part hf hr).bind
      ((fixed_joinWith decisive part hf hold).bind ((ih hr).bind (fixed_pure _))))

theorem fixed_joinRandom (decisive : setup.Decisive)
    (part : setup.config.randomJoins ≠ 0 → parts .chance) {node : Nat}
    (hn : node < setup.nodeCount) (others : 2 ≤ setup.nodeCount) :
    Fixed setup capacity parts fun _ : ι => joinRandom setup node setup.config.randomJoins := by
  refine (fixed_mapM fun round hr κ => ?_).bind (fixed_pure _)
  have joins : setup.config.randomJoins ≠ 0 := by
    have := List.mem_range.1 hr
    omega
  refine Fixed.afterDraw (P := (· < setup.nodeCount - 1)) (below_lt (by omega)) fun number lt => ?_
  exact fixed_joinOne decisive (part joins) hn (Sampler.isOther_skip lt).1

theorem fixed_joinNode (decisive : setup.Decisive) (part : parts .joining)
    (chance : setup.config.randomJoins ≠ 0 → parts .chance) {c : Candidates} {node : Nat}
    (hn : node < setup.nodeCount) (others : 2 ≤ setup.nodeCount) (sampled : Nat)
    (known : c.Known setup.nodeCount) :
    Fixed setup capacity parts fun _ : ι => joinNode setup c sampled node := by
  refine Fixed.afterDraw (P := fun set => ∀ x ∈ set, x < setup.nodeCount) (fun g x hx => ?_)
    fun old hold => ?_
  · exact (mem_workingSet hx).elim (known.old node x) (known.reverseOld node x)
  refine Fixed.afterDraw (P := fun set => ∀ x ∈ set, x < setup.nodeCount) (fun g x hx => ?_)
    fun new hnew => ?_
  · exact (mem_workingSet hx).elim (known.new node x) (known.reverseNew node x)
  exact (fixed_joinNew decisive part hn hold hnew).bind
    ((fixed_joinRandom decisive chance hn others).bind (fixed_pure _))

/-- An event that is neither a candidate nor an entry makes no difference. -/
theorem Fixed.afterNote {e : ι → Event} {w : ι → Work α} (quiet : ∀ i, (e i).considered? = none)
    (outside : ∀ i, (e i).entered? = none) (h : Fixed setup capacity parts w) :
    Fixed setup capacity parts fun i => (do record (e i); w i) := by
  intro g
  obtain ⟨g', script, plays⟩ := h g
  refine ⟨g', script, fun i => ?_⟩
  have after := WorkPlays.afterRecord ?_ (outside i) ((plays i).mono (List.nil_subset [e i]))
  · rwa [quiet i, Option.toList_none, List.nil_append] at after
  · intro v c x eq
    simpa [eq, Event.considered?] using quiet i

theorem fixed_listOf (node : Nat) :
    Fixed setup capacity parts fun _ : ι => (liftM (listOf node) : Work (List Nat)) :=
  fun g => ⟨g, [], fun _ _ _ _ => Meets.map (meets_atomic fun t _ =>
    ⟨(entering setup capacity).still t, [], (List.append_nil _).symm, fun _ _ => ⟨rfl, .nil⟩⟩)⟩

theorem sampleCandidates_apply (setup : Setup) (node count : Nat) (g : Generator) :
    sampleCandidates setup node count g =
      match (Sampler.sample setup.config.sampler setup.graph node count g).1 with
      | .ok candidates => .done
        (candidates, (Sampler.sample setup.config.sampler setup.graph node count g).2)
      | .error cause => .failed (.walk cause) := by
  change (match (Sampler.sample setup.config.sampler setup.graph node count g).1 with
    | .ok candidates => pure candidates
    | .error cause => liftM (Search.failed (.walk cause)) : Work (List Nat))
      (Sampler.sample setup.config.sampler setup.graph node count g).2 = _
  cases (Sampler.sample setup.config.sampler setup.graph node count g).1 <;> rfl

/-- Filling the list of a node, if the sampler has candidates for it. -/
theorem exists_workPlays_fillNode (decisive : setup.Decisive) (part : parts .sampling)
    {node count : Nat} (hn : node < setup.nodeCount) {candidates : List Nat}
    (sample : (Sampler.sample setup.config.sampler setup.graph node count g).1 = .ok candidates) :
    ∃ g' script, WorkPlays setup capacity parts [] (fillNode setup count node) g g' script := by
  have others := Sampler.gives_sample setup.config.sampler setup.graph node count g
  rw [sample] at others
  have rest : Fixed setup capacity parts fun _ : Unit => (do
      let tallies ← candidates.mapM (tryCandidate setup node)
      record (.offered node (← listOf node))
      return Tally.total tallies : Work Tally) :=
    (fixed_mapM fun x hx _ => fixed_tryCandidate decisive part hn (others candidates rfl x hx)).bind
      ((fixed_listOf node).bind
        (Fixed.afterNote (e := fun i : (Unit × List Tally) × List Nat => .offered node i.2)
          (fun _ => rfl) (fun _ => rfl) (fixed_pure _)))
  obtain ⟨g', script, plays⟩ :=
    rest (Sampler.sample setup.config.sampler setup.graph node count g).2
  refine ⟨g', script, fun s sound logged => ?_⟩
  change Meets _ (sampleCandidates setup node count g >>= _) _ s
  rw [sampleCandidates_apply, sample]
  exact plays () s sound logged

/-! ### Phases -/

/-- Several pieces of work consider what each of them considers. -/
theorem Each.plays {κ : Type} {scripts : κ → List (Nat × Nat × Float)} {ks : List κ} {as : List α}
    {events : List Event}
    (each : Each (fun k _ events _ => Plays parts (scripts k) events) ks as events s) :
    Plays parts (ks.flatMap scripts) events := by
  induction each with
  | nil => exact .nil
  | cons first _ ih => exact first.append ih
  | report he _ ih => exact (plays_report he).append ih
  | perm hp _ ih =>
    exact ⟨fun p => ((hp.filterMap _).mem_iff).symm.trans (ih.considered p),
      fun origin v c hc => ih.entered origin v c (hp.mem_iff.2 hc)⟩

variable (capacity parts) in
/-- A phase considers what the work on its nodes considers, whatever the turns of its tasks. -/
theorem exists_plays_phase (decisive : setup.Decisive) {work : Nat → Work Tally} {stream : Stream}
    (name : Phase) (h : ∀ v < setup.nodeCount, ∃ g' script,
      WorkPlays setup capacity parts [] (work v) (stream.generator v) g' script) :
    ∃ script, ∀ turns s, Sound setup capacity s → Meets (entering setup capacity)
      (phase setup turns name fun v => seeded stream v (work v))
      (fun _ events _ => Plays parts script events) s := by
  have h : ∀ v, ∃ script, v < setup.nodeCount → ∃ g',
      WorkPlays setup capacity parts [] (work v) (stream.generator v) g' script := by
    intro v
    by_cases hv : v < setup.nodeCount
    · obtain ⟨g', script, plays⟩ := h v hv
      exact ⟨script, fun _ => ⟨g', plays⟩⟩
    · exact ⟨[], fun lt => absurd lt hv⟩
  choose script plays using h
  refine ⟨(List.range setup.nodeCount).flatMap script, fun turns s sound => ?_⟩
  have works : ∀ v < setup.nodeCount, Meets (entering setup capacity) (seeded stream v (work v))
      (fun _ events _ => Plays parts (script v) events) s := by
    intro v hv
    obtain ⟨g', plays⟩ := plays v hv
    exact Meets.map ((plays s sound (by simp)).imp fun _ _ _ h => h.2)
  refine (meets_phase_shared entering_self (entering_heeds decisive.goesOn) works turns).imp ?_
  intro tallies events t each
  exact each.plays

/-- What is considered while the lists are filled, if the sampler has candidates for all nodes. -/
theorem exists_plays_fill (decisive : setup.Decisive) {stream : Stream} {count : Nat}
    (samples : setup.Sampled stream count) :
    ∃ script, ∀ turns s, Sound setup capacity s → Meets (entering setup capacity)
      (fill setup turns stream count)
      (fun _ events _ => Plays (fun _ => True) script events) s := by
  obtain ⟨script, plays⟩ := exists_plays_phase capacity (fun _ => True) decisive .initialization
    fun v hv => (samples v hv).elim fun _ => exists_workPlays_fillNode decisive trivial hv
  exact ⟨script, fun turns s sound => Meets.map (plays turns s sound)⟩

/-- What is considered in a join phase. -/
theorem exists_plays_join (decisive : setup.Decisive) (others : 2 ≤ setup.nodeCount)
    {c : Candidates} (known : c.Known setup.nodeCount) (stream : Stream) (sampled : Nat) :
    ∃ script, ∀ turns s, Sound setup capacity s → Meets (entering setup capacity)
      (join setup turns c stream sampled)
      (fun _ events _ => Plays setup.joinParts script events) s := by
  have fixed : ∀ v < setup.nodeCount, Fixed setup capacity setup.joinParts
      fun _ : Unit => joinNode setup c sampled v :=
    fun v hv => fixed_joinNode decisive (.inl rfl) .inr hv others sampled known
  obtain ⟨script, plays⟩ := exists_plays_phase capacity _ decisive .join fun v hv =>
    have ⟨g', script, plays⟩ := fixed v hv (stream.generator v)
    ⟨g', script, plays ()⟩
  refine ⟨script, fun turns s sound => ?_⟩
  refine Meets.bind ((meets_proceed (entering_heeds decisive.goesOn) .join).imp ?_)
  rintro _ _ t ⟨rfl, r⟩
  exact Meets.map (plays turns t (r sound).1)

end

end Search

end NeighbourGraph
