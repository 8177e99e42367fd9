import MusicCatalog.Random.Words

/-!
# Shuffling

Each element of an array in turn is exchanged with itself or one before it. One drawn number serves
several of these choices: it is uniform below the product of their bounds, as long as the product
is below `2 ^ 32`.

* `Pool`, `Pool.draw`: a number that still holds some choices, and the next choice;
* **`shuffle`**: the shuffled array.
-/

namespace MusicCatalog.Random

/-- A drawn number from which `choices` choices can still be taken. -/
structure Pool where
  value : Nat
  choices : Nat

/-- Multiplies further bounds into a product while it stays below `2 ^ 32`. Gives the product and
the first bound that is left out. -/
def gatherBounds (product bound : Nat) : (rounds : Nat) → Nat × Nat
  | 0 => (product, bound)
  | rounds + 1 =>
    if product * bound < 0x100000000 then gatherBounds (product * bound) (bound + 1) rounds
    else (product, bound)

/-- A pool whose next choice is below `bound`, the one after it below `bound + 1`, and so on. The
product at least doubles in each round, so 32 rounds are enough. -/
def Pool.fill (bound : Nat) (w : Words) : Pool × Words :=
  let (product, stop) := gatherBounds bound (bound + 1) 32
  let (value, w) := w.below product
  (⟨value, stop - bound⟩, w)

/-- Takes the choice below `bound` from a pool, filling it first if it is empty. -/
def Pool.draw (pool : Pool) (bound : Nat) (w : Words) : Nat × Pool × Words :=
  let (pool, w) := if pool.choices = 0 then Pool.fill bound w else (pool, w)
  if pool.choices = 1 then (pool.value, ⟨pool.value, 0⟩, w)
  else (pool.value % bound, ⟨pool.value / bound, pool.choices - 1⟩, w)

variable {α : Type}

/-- Shuffles `count` elements from `start` on among those up to themselves. -/
def shuffleFrom : (count start : Nat) → Pool → Array α → Words → Array α
  | 0, _, _, xs, _ => xs
  | count + 1, start, pool, xs, w =>
    let (t, pool, w) := pool.draw (start + 1) w
    shuffleFrom count (start + 1) pool (xs.swapIfInBounds start t) w

/-- The shuffled array. The choice for the first element needs no draw. -/
def shuffle (xs : Array α) (w : Words) : Array α := shuffleFrom xs.size 0 ⟨0, 1⟩ xs w

end MusicCatalog.Random
