/-
Seeds that are derived from one base differ.

The scrambling is a chain of steps that can all be undone: a sum, xors of a word with itself moved
down, and products with odd words. An index reaches it through such steps too, since the gap between
indices is odd. So a base has a seed of its own for each index. For the streams of a run the index
counts how many were taken before, and comes round after all `2 ^ 64` words; for the generators of a
stream it is the node.
-/

import Mathlib.Data.FinEnum
import Mathlib.Data.Nat.ModEq
import Mathlib.Data.Nat.Prime.Basic
import NeighbourGraph.Random.Stream

namespace NeighbourGraph.Random

/-! ### Steps that can be undone -/

/-- A word that moving it down does not change has no bits. -/
theorem eq_zero_of_shiftRight_eq {k x : UInt64} (moves : 0 < k.toNat % 64) (same : x >>> k = x) :
    x = 0 := by
  have same := congrArg UInt64.toNat same
  rw [UInt64.toNat_shiftRight, Nat.shiftRight_eq_div_pow] at same
  by_contra bits
  have pos : 0 < x.toNat := Nat.pos_of_ne_zero fun zero => bits (UInt64.toNat_inj.1 zero)
  have less : x.toNat / 2 ^ (k.toNat % 64) < x.toNat :=
    Nat.div_lt_self pos (Nat.one_lt_two_pow moves.ne')
  omega

theorem xor_shiftRight_injective {k : UInt64} (moves : 0 < k.toNat % 64) :
    Function.Injective fun x : UInt64 => x ^^^ (x >>> k) := by
  intro x y same
  change x ^^^ (x >>> k) = y ^^^ (y >>> k) at same
  have moved : x >>> k = x ^^^ (y ^^^ (y >>> k)) := by
    rw [← same, ← UInt64.xor_assoc, UInt64.xor_self, UInt64.zero_xor]
  -- Moving down acts on each place alone, so it does not change where the words differ.
  have fixed : (x ^^^ y) >>> k = x ^^^ y := by
    rw [UInt64.shiftRight_xor, moved, UInt64.xor_assoc, UInt64.xor_assoc, UInt64.xor_self,
      UInt64.xor_zero]
  exact UInt64.xor_eq_zero_iff.1 (eq_zero_of_shiftRight_eq moves fixed)

theorem mul_injective_of_odd {a : UInt64} (odd : Odd a.toNat) :
    Function.Injective fun x : UInt64 => x * a := by
  intro x y same
  have same := congrArg UInt64.toNat same
  rw [UInt64.toNat_mul, UInt64.toNat_mul] at same
  have coprime : Nat.gcd (2 ^ 64) a.toNat = 1 :=
    ((Nat.coprime_two_right.2 odd).pow_right 64).symm
  have equal : x.toNat % 2 ^ 64 = y.toNat % 2 ^ 64 :=
    Nat.ModEq.cancel_right_of_coprime coprime same
  rw [Nat.mod_eq_of_lt x.toNat_lt, Nat.mod_eq_of_lt y.toNat_lt] at equal
  exact UInt64.toNat_inj.1 equal

/-! ### Scrambling -/

theorem odd_goldenGap : Odd goldenGap.toNat := by decide

theorem splitmix_injective : Function.Injective splitmix := by
  have sum : Function.Injective fun s : UInt64 => s + goldenGap :=
    fun _ _ => (UInt64.add_left_inj goldenGap).1
  have first : Function.Injective fun y : UInt64 => y * 0xBF58476D1CE4E5B9 :=
    mul_injective_of_odd (by decide)
  have second : Function.Injective fun z : UInt64 => z * 0x94D049BB133111EB :=
    mul_injective_of_odd (by decide)
  exact (xor_shiftRight_injective (k := 31) (by decide)).comp <| second.comp <|
    (xor_shiftRight_injective (k := 27) (by decide)).comp <| first.comp <|
    (xor_shiftRight_injective (k := 30) (by decide)).comp sum

theorem mix_injective (base : UInt64) : Function.Injective (mix base) := by
  intro i j same
  have spread := (UInt64.xor_right_inj base).1 (splitmix_injective same)
  exact (UInt64.add_left_inj 1).1 (mul_injective_of_odd odd_goldenGap spread)

/-! ### Streams and generators -/

/-- The streams that are taken one after the other, `count` of them. -/
def Streams.taken (s : Streams) : Nat → List Stream
  | 0 => []
  | count + 1 => s.take.1 :: s.take.2.taken count

theorem Streams.taken_eq (s : Streams) (count : Nat) :
    s.taken count = (List.range count).map fun i => ⟨mix s.base (s.next + i.toUInt64)⟩ := by
  induction count generalizing s with
  | zero => rfl
  | succ count ih =>
    have next (i : Nat) : s.next + 1 + i.toUInt64 = s.next + (i + 1).toUInt64 := by
      rw [Nat.toUInt64_eq, Nat.toUInt64_eq, Nat.add_comm i, UInt64.ofNat_add, UInt64.add_assoc]
      rfl
    simp [taken, take, ih, List.range_succ_eq_map, next]

/-- The seed of the generator of a node. -/
def Stream.nodeSeed (s : Stream) (node : Nat) : UInt64 := mix s.seed node.toUInt64

theorem toUInt64_injOn : Set.InjOn Nat.toUInt64 (Set.Iio UInt64.size) := by
  intro i hi j hj same
  have same := congrArg UInt64.toNat same
  rwa [Nat.toUInt64_eq, Nat.toUInt64_eq, UInt64.toNat_ofNat_of_lt' hi,
    UInt64.toNat_ofNat_of_lt' hj] at same

/-- As many streams as there are words differ, and no more. -/
theorem Streams.nodup_taken_iff (s : Streams) (count : Nat) :
    ((s.taken count).map (·.seed)).Nodup ↔ count ≤ UInt64.size := by
  constructor
  · intro nodup
    have length := nodup.length_le_card
    rw [taken_eq, List.length_map, List.length_map, List.length_range] at length
    rwa [← FinEnum.card_eq_fintypeCard, FinEnum.card_UInt64] at length
  · intro le
    rw [taken_eq, List.map_map]
    refine List.nodup_range.map_on fun i hi j hj same => ?_
    rw [List.mem_range] at hi hj
    have index := (UInt64.add_right_inj s.next).1 (mix_injective s.base same)
    exact toUInt64_injOn (hi.trans_le le) (hj.trans_le le) index

/-- **Derived seeds never collide.** The gap between indices is odd and the scrambling is a
bijection of all words, so under one base each index has a seed of its own. Streams that are taken
one after the other have different seeds as long as there are no more of them than words, and the
generators of one stream have different seeds for any two nodes below that number. -/
theorem derived_seeds_differ :
    Odd goldenGap.toNat ∧ Function.Bijective splitmix ∧
    (∀ base i j, mix base i = mix base j ↔ i = j) ∧
    (∀ (s : Streams) (count : Nat),
      ((s.taken count).map (·.seed)).Nodup ↔ count ≤ UInt64.size) ∧
    ∀ s : Stream, (∀ node, s.generator node = .ofSeed (s.nodeSeed node)) ∧
      Set.InjOn s.nodeSeed (Set.Iio UInt64.size) := by
  refine ⟨odd_goldenGap, Finite.injective_iff_bijective.1 splitmix_injective,
    fun base i j => (mix_injective base).eq_iff, Streams.nodup_taken_iff,
    fun s => ⟨fun _ => rfl, ?_⟩⟩
  exact (mix_injective s.seed).comp_injOn toUInt64_injOn

end NeighbourGraph.Random
