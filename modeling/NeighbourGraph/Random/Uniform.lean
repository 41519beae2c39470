/-
Uniform draws: counts below a bound, numbers below a bound, and events of a given chance.

A count below `range` is the upper half of the product of `range` with a word. To keep it
uniform, words whose lower half falls beyond a zone are thrown away and drawn again. At least
every second word is kept, so the number of attempts is limited far beyond what a run can need;
when it is used up the upper half of the product is kept regardless, and stays below `range`. The
method itself has no limit: what is given at its end is no outcome of it, and only keeps the
functions total.
-/

import NeighbourGraph.Random.Generator
import NeighbourGraph.Number.Count

namespace NeighbourGraph.Random

open NeighbourGraph.Number

/-- How often a draw is repeated before its last attempt is kept. -/
def attempts : Nat := 1024

/-- Repeats `attempt` until it gives a value, `limit` times at most. -/
def retry {α : Type} (attempt : Draw (Option α)) : Nat → Draw (Option α)
  | 0 => pure none
  | limit + 1 => do
    match ← attempt with
    | some value => return some value
    | none => retry attempt limit

/-- What a repeated draw gives is what one of its attempts gave. -/
theorem retry_eq_some {α : Type} {P : α → Prop} {attempt : Draw (Option α)}
    (h : ∀ g a, (attempt g).1 = some a → P a) {limit : Nat} {g : Generator} {a : α}
    (ha : (retry attempt limit g).1 = some a) : P a := by
  induction limit generalizing g with
  | zero => cases ha
  | succ limit ih =>
    rw [retry, Draw.bind_apply] at ha
    cases hv : (attempt g).1 with
    | none =>
      rw [hv] at ha
      exact ih ha
    | some b =>
      rw [hv] at ha
      cases ha
      exact h g a hv

/-! ### Words as counts -/

/-- The two sizes of word that draws are made from. -/
inductive Width where
  | half
  | full
  deriving DecidableEq, Repr

def Width.bits : Width → Nat
  | .half => 32
  | .full => 64

/-- A word of the given size, as a count. -/
def Width.draw : Width → Draw Nat
  | .half => do return (← halfWord).toNat
  | .full => do return (← word).toNat

/-- How many words of the given size there are. -/
def Width.size : Width → Nat
  | .half => UInt32.size
  | .full => UInt64.size

theorem Width.draw_lt (w : Width) (g : Generator) : (w.draw g).1 < w.size := by
  cases w with
  | half => exact (UInt64.toUInt32 _).toNat_lt
  | full => exact (word g).1.toNat_lt

/-! ### Counts below a bound -/

/-- The last lower half that is kept: `range` shifted up as far as it goes, less one. -/
def shiftedZone (w : Width) (range : Nat) : Nat := range <<< (w.bits - 1 - range.log2) - 1

/-- The last lower half that is kept when none is wasted: the largest multiple of `range` that
a word can count up to, less one. -/
def exactZone (w : Width) (range : Nat) : Nat :=
  w.size - 1 - (w.size - range) % range

/-- One attempt at a count below `range`. -/
def attemptBelow (w : Width) (zone range : Nat) : Draw (Option Nat) := do
  let product := (← w.draw) * range
  return if product % w.size ≤ zone then some (product / w.size) else none

/-- A count below `range`, which is positive. What is given when the attempts are used up is no
outcome of the method and only keeps the function total. -/
def belowWith (w : Width) (zone range : Nat) : Draw Nat := do
  match ← retry (attemptBelow w zone range) attempts with
  | some value => return value
  | none => return (← w.draw) * range / w.size

/-- The upper half of a product with a word is below the other factor. -/
theorem mul_div_size_lt {w : Width} {range v : Nat} (hr : 0 < range) (hv : v < w.size) :
    v * range / w.size < range :=
  Nat.div_lt_of_lt_mul (Nat.mul_lt_mul_of_pos_right hv hr)

/-- An attempt that is kept gives a count below the bound. -/
theorem attemptBelow_lt {w : Width} {zone range v : Nat} (hr : 0 < range) {g : Generator}
    (h : (attemptBelow w zone range g).1 = some v) : v < range := by
  rw [attemptBelow, Draw.bind_apply, Draw.pure_apply] at h
  dsimp only at h
  split at h
  · cases h
    exact mul_div_size_lt hr (w.draw_lt g)
  · cases h

/-- A count drawn below a positive bound is below it. -/
theorem belowWith_lt {w : Width} {zone range : Nat} (hr : 0 < range) (g : Generator) :
    (belowWith w zone range g).1 < range := by
  rw [belowWith, Draw.bind_apply]
  cases hv : (retry (attemptBelow w zone range) attempts g).1 with
  | some v => exact retry_eq_some (P := (· < range)) (fun _ _ => attemptBelow_lt hr) hv
  | none => exact mul_div_size_lt hr (w.draw_lt _)

/-- A count below `range`, drawn from 64-bit words. -/
def below (range : Nat) : Draw Nat := belowWith .full (shiftedZone .full range) range

/-- A count below `range`, drawn from 32-bit words. -/
def belowHalf (range : Nat) : Draw Nat := belowWith .half (shiftedZone .half range) range

/-! ### Numbers -/

/-- `2 ^ -53`. -/
def unitStep : Float := Float.ofBits 0x3CA0000000000000

/-- A number of `[0, 1)` on the grid of `2 ^ -53`. -/
def unit : Draw Float := do
  let w ← word
  return (w >>> 11).toFloat * unitStep

/-- A number of `[0, 1)` on the grid of `2 ^ -52`: a fraction put under the exponent of one,
less one. -/
def fraction : Draw Float := do
  let w ← word
  return Float.ofBits ((0x3FF0000000000000 : UInt64) ||| (w >>> 12)) - 1.0

/-- A number of `[0, bound)`, for a positive finite bound. Rounding can reach the bound; such
draws are repeated for as long as it takes. So `0.0`, given when the attempts are used up, is no
outcome of the method and only keeps the function total. -/
def realBelow (bound : Float) : Draw Float := do
  let attempt : Draw (Option Float) := do
    let x := (← fraction) * bound + 0.0
    return if x < bound then some x else none
  return (← retry attempt attempts).getD 0.0

/-- `2 ^ 64`. -/
def wordCount : Float := Float.ofBits 0x43F0000000000000

/-- An event of chance `p`, for `0 ≤ p < 1`. -/
def chance (p : Float) : Draw Bool := do
  let w ← word
  return w < (p * wordCount).toUInt64

end NeighbourGraph.Random
