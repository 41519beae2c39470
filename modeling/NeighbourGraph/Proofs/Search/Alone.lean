/-
Searches carried out alone, one partition after the other.

`Leads P Q p` says that `p` leaves a state with `Q` if it is started in one with `P` and has a
value. Unlike a contract it lets an action break what a later one mends, since no other search acts
in between.
-/

import NeighbourGraph.Proofs.Search.Contract

namespace NeighbourGraph.Search

open NeighbourGraph.Random

/-- Carried out alone in a state with `P`, a search that has a value leaves a state with `Q`. -/
def Leads (P Q : State → Prop) {α : Type} (p : Search α) : Prop :=
  ∀ s a t, P s → p.exec s = (.ok a, t) → Q t

/-- Work that leads from `P` to `Q` whatever random words it takes. -/
def WorkLeads (P Q : State → Prop) {α : Type} (w : Work α) : Prop :=
  ∀ g, Leads P Q (w g)

section

variable {P Q R : State → Prop} {ι α β : Type} {p : Search α} {w : Work α}

/-! ### Searches -/

theorem leads_pure {a : α} : Leads P P (pure a : Search α) := by
  intro s _ _ hs run
  cases run
  exact hs

theorem leads_failed {cause : SearchError} : Leads P Q (.failed cause : Search α) :=
  fun _ _ _ _ run => nomatch run

theorem Leads.bind {f : α → Search β} (h : Leads P Q p) (rest : ∀ a, Leads Q R (f a)) :
    Leads P R (p >>= f) := by
  intro s b t hs run
  obtain ⟨a, u, first, second⟩ := exec_bind_ok.1 run
  exact rest a u b t (h s a u hs first) second

theorem leads_atomic {action : State → α × State} (h : ∀ s, P s → Q (action s).2) :
    Leads P Q (atomic action) := by
  intro s _ _ hs run
  cases run
  exact h s hs

theorem leads_record {e : Event} (h : ∀ s, P s → Q (s.record e)) : Leads P Q (record e) :=
  leads_atomic h

theorem leads_proceed (setup : Setup) (name : Phase) : Leads P P (proceed setup name) := by
  intro s _ t hs run
  obtain ⟨-, rfl⟩ := exec_proceed_ok.1 run
  exact hs

/-! ### Work -/

theorem workLeads_pure {a : α} : WorkLeads P P (pure a : Work α) :=
  fun _ => leads_pure

theorem WorkLeads.bind {f : α → Work β} (h : WorkLeads P Q w) (rest : ∀ a, WorkLeads Q R (f a)) :
    WorkLeads P R (w >>= f) :=
  fun g => (h g).bind fun r => rest r.1 r.2

theorem workLeads_lift (h : Leads P Q p) : WorkLeads P Q (liftM p : Work α) :=
  fun _ => h.bind fun _ => leads_pure

end

end NeighbourGraph.Search
