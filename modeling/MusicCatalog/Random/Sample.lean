import MusicCatalog.Random.Words

/-!
# Sampling positions

Some of the positions `0, 1, …, n - 1`, each at most once. Small samples are drawn by growing a set,
large ones, compared with `n`, by the beginning of a shuffle. The latter also serves for the largest
ranges.

* `growSet`: a position for each bound; one that is there already gives way to the bound itself;
* `shuffleFront`: the first places of an array are filled from the places after them;
* **`sample`**: the positions, in no particular order.
-/

namespace MusicCatalog.Random

/-- Adds `count` positions to `chosen`, the first of them at most `last`, and each further one at
most one more than that. -/
def growSet : (count last : Nat) → (chosen : List Nat) → Words → List Nat
  | 0, _, chosen, _ => chosen
  | count + 1, last, chosen, w =>
    let (t, w) := w.below (last + 1)
    growSet count (last + 1) ((if t ∈ chosen then last else t) :: chosen) w

/-- Exchanges each of `count` places from `start` on with a random place from it on. -/
def shuffleFront : (count start : Nat) → (places : Array Nat) → Words → Array Nat
  | 0, _, places, _ => places
  | count + 1, start, places, w =>
    let (t, w) := w.below (places.size - start)
    shuffleFront count (start + 1) (places.swapIfInBounds start (start + t)) w

/-- A set is grown for fewer than 163 positions, unless they are more than 11 and `n` is below
`10 + 1.6 * k` times their number `k`. -/
def growsSet (n k : Nat) : Bool := k < 163 && !(11 < k && 5 * n < (50 + 8 * k) * k)

/-- `k` of the positions below `n`; `k` is at most `n`.

A third way is left out. Large samples from very much larger ranges can also be drawn by throwing away
what has been drawn before: 163 positions or more if `n` is at least `270 * k`, or at least
`330 / 9 * k` from `n = 500000` on, and any number of them if `n` needs more than 32 bits. Here these
samples come from a shuffle too. The same words then stand for other positions, but for as many, and
again for different ones below `n`. -/
def sample (n k : Nat) (w : Words) : List Nat :=
  if growsSet n k then growSet k (n - k) [] w
  else (shuffleFront k 0 (Array.range n) w).toList.take k

end MusicCatalog.Random
