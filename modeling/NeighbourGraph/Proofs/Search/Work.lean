/-
Contracts of the work on a node.

`Does c w post s` says that the work `w` meets the contract `c` whatever random words it takes.
The rules here are for contracts that tolerate what they allow, so that all nodes can be worked on
at once under the same contract: what was reached on the way then stays true to the end.
-/

import NeighbourGraph.Proofs.Search.Phase

namespace NeighbourGraph.Search

open NeighbourGraph.Random

/-- The work meets a contract from every generator, and what is to hold does not depend on the
words taken. -/
def Does (c : Contract) {α : Type} (w : Work α) (post : Post α) (s : State) : Prop :=
  ∀ g, Meets c (w g) (fun r => post r.1) s

section

variable {c : Contract} {α β : Type} {w : Work α} {post post' : Post α} {s t : State}

theorem Does.imp (h : Does c w post s) (imp : ∀ a events s, post a events s → post' a events s) :
    Does c w post' s :=
  fun g => (h g).imp fun r => imp r.1

theorem Does.later (h : Does c w post s) (r : c.rely s t) : Does c w post t :=
  fun g => (h g).later r

theorem does_pure {a : α} (h : ∀ t, c.rely s t → post a [] t) :
    Does c (pure a : Work α) post s :=
  fun _ => h

theorem does_lift {p : Search α} (h : Meets c p post s) : Does c (liftM p : Work α) post s :=
  fun g => Meets.map (f := fun a => (a, g)) h

theorem does_draw {d : Draw α} {P : Post α} (h : ∀ g t, c.rely s t → P (d g).1 [] t) :
    Does c (draw d) P s :=
  h

theorem meets_seeded {stream : Stream} {node : Nat} (h : Does c w post s) :
    Meets c (seeded stream node w) post s :=
  Meets.map (f := Prod.fst) (h (stream.generator node))

theorem Does.map {f : α → β} {post : Post β} (h : Does c w (fun a => post (f a)) s) :
    Does c (do let a ← w; return f a) post s :=
  fun g => Meets.map (f := Prod.map f id) (h g)

/-- Work goes on from where the work before it ended, and what that came to stays true. -/
theorem Does.bind {f : α → Work β} {P : Post α} {Q : α → List Event → Post β} {post : Post β}
    (self : c.Tolerates c) (first : Does c w P s)
    (rest : ∀ a events t, c.rely s t → P a events t → Does c (f a) (Q a events) t)
    (both : ∀ a events b later t, P a events t → Q a events b later t →
      post b (events ++ later) t) :
    Does c (w >>= f) post s := by
  intro g
  have kept : ∀ u s t, c.rely u s → c.guarantee s t → c.rely u t :=
    fun u s t r allowed => c.rely_trans r (self s t allowed)
  refine Meets.bind (((first g).lasting.frame (F := c.rely s) (.refl c) (c.rely_refl s)
    (fun _ _ => c.rely_trans) (kept s)).imp ?_)
  rintro ⟨a, g'⟩ events t ⟨r, held⟩
  refine (((rest a events t r (held t (c.rely_refl t))) g').frame (F := c.rely t)
    (.refl c) (c.rely_refl t) (fun _ _ => c.rely_trans) (kept t)).imp ?_
  rintro ⟨b, g''⟩ later u ⟨r', hb⟩
  exact both a events b later u (held u r') hb

/-- Work on several things, one after the other. -/
theorem does_mapM {ι : Type} {f : ι → Work α} {post : ι → Post α} {is : List ι}
    (self : c.Tolerates c) (does : ∀ i ∈ is, Does c (f i) (post i) s) :
    Does c (is.mapM f) (Each post is) s := by
  induction is with
  | nil => exact fun g t _ => .nil
  | cons i is ih =>
    rw [List.mapM_cons]
    have rest := ih fun j hj => does j (by simp [hj])
    refine (does i (by simp)).bind self
      (Q := fun a _ answers later t => ∃ as, answers = a :: as ∧ Each post is as later t) ?_ ?_
    · exact fun a events t r _ => ((rest.later r).imp fun as _ _ each => ⟨as, rfl, each⟩).map
    · rintro a events _ later t first ⟨as, rfl, each⟩
      exact .cons first each

end

end NeighbourGraph.Search
