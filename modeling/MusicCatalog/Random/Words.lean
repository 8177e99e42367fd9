/-!
# Random words

Chance comes from an endless sequence of 32-bit words, drawn one after another.

* **`Words`**, `Words.cycle`: a sequence with the place reached in it, and the one that repeats a
  list;
* `Words.next`: the next word;
* `Words.below`: a number below a bound, from one word or two;
* `below_lt`: it is below the bound.
-/

namespace MusicCatalog.Random

/-- An endless sequence of words, and how many of them have been drawn. -/
structure Words where
  word : Nat → UInt32
  drawn : Nat

namespace Words

/-- The words of a list over and over; zeros if the list is empty. -/
def cycle (ws : List UInt32) : Words :=
  let words := ws.toArray
  ⟨fun i => words.getD (i % words.size) 0, 0⟩

/-- Draws the next word. -/
def next (w : Words) : Nat × Words := ((w.word w.drawn).toNat, { w with drawn := w.drawn + 1 })

theorem next_lt (w : Words) : w.next.1 < 0x100000000 := (w.word w.drawn).toNat_lt

/-- Draws a number below `n`. The word is read as a fraction of `2 ^ 32`; if the product with `n` is
so near to the next whole number that further digits could reach it, a second word gives those. -/
def below (n : Nat) (w : Words) : Nat × Words :=
  let (x, w) := w.next
  let whole := x * n / 0x100000000
  let part := x * n % 0x100000000
  if 0x100000000 < part + n then
    let (y, w) := w.next
    (if 0x100000000 ≤ part + y * n / 0x100000000 then whole + 1 else whole, w)
  else (whole, w)

/-- A drawn number is below its bound. -/
theorem below_lt {n : Nat} (h : 0 < n) (w : Words) : (w.below n).1 < n := by
  have hx := w.next_lt
  have hy := w.next.2.next_lt
  simp only [below]
  generalize w.next.1 = x at hx
  generalize w.next.2.next.1 = y at hy
  have hprod : x * n ≤ (0x100000000 - 1) * n := Nat.mul_le_mul_right n (by omega)
  have hdiv := Nat.div_add_mod (x * n) 0x100000000
  have hmod := Nat.mod_lt (x * n) (show 0x100000000 > 0 by decide)
  have hwhole : x * n / 0x100000000 < n := by
    refine Nat.div_lt_of_lt_mul ?_
    refine Nat.lt_of_le_of_lt hprod ?_
    exact Nat.mul_lt_mul_of_pos_right (by decide) h
  split
  · split
    · next hcarry =>
      have hlow : y * n / 0x100000000 < n := by
        refine Nat.div_lt_of_lt_mul ?_
        exact Nat.mul_lt_mul_of_pos_right hy h
      have hs : (0x100000000 - 1) * n + n = 0x100000000 * n := by
        rw [Nat.sub_mul, Nat.one_mul]
        exact Nat.sub_add_cancel (Nat.le_mul_of_pos_left n (by decide))
      have : 0x100000000 * (x * n / 0x100000000 + 1) < 0x100000000 * n := by
        rw [Nat.mul_add]
        omega
      exact Nat.lt_of_mul_lt_mul_left this
    · exact hwhole
  · exact hwhole

end Words

end MusicCatalog.Random
