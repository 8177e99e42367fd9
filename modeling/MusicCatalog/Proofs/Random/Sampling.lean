import Mathlib.Data.List.Nodup
import MusicCatalog.Random.Sample
import MusicCatalog.Random.Shuffle

/-!
# Samples are made of different positions

* `Positions`: numbers below a bound, each at most once;
* `Positions.grow`, `growSet_positions`: each step of a growing set adds one;
* `swapIfInBounds_perm`, `shuffleFront_perm`, `shuffle_perm`: exchanges only reorder;
* **`sample_positions`**, **`length_sample`**: so many positions as were asked for, all different.
-/

namespace MusicCatalog.Random

/-- Numbers below a bound, each at most once. -/
structure Positions (n : Nat) (xs : List Nat) : Prop where
  nodup : xs.Nodup
  lt : ∀ x ∈ xs, x < n

namespace Positions

variable {n : Nat} {xs : List Nat}

theorem take (h : Positions n xs) (k : Nat) : Positions n (xs.take k) where
  nodup := (List.take_sublist k xs).nodup h.nodup
  lt x hx := h.lt x (List.mem_of_mem_take hx)

/-- Of all numbers below the bound, so many are among the positions as there are positions. -/
theorem countP_range (h : Positions n xs) : (List.range n).countP (xs.contains ·) = xs.length := by
  rw [List.countP_eq_length_filter]
  refine List.Perm.length_eq ?_
  rw [List.perm_ext_iff_of_nodup (List.nodup_range.filter _) h.nodup]
  intro x
  rw [List.mem_filter, List.mem_range, List.contains_iff_mem]
  exact ⟨fun hx => hx.2, fun hx => ⟨h.lt x hx, hx⟩⟩

/-- A new number, at most the bound, gives way to the bound itself if it is there already. -/
theorem grow {t : Nat} (h : Positions n xs) (ht : t < n + 1) :
    Positions (n + 1) ((if t ∈ xs then n else t) :: xs) where
  nodup := by
    refine List.nodup_cons.2 ⟨?_, h.nodup⟩
    split
    · exact fun hn => Nat.lt_irrefl n (h.lt n hn)
    · assumption
  lt := by
    refine List.forall_mem_cons.2 ⟨?_, fun x hx => Nat.lt_succ_of_lt (h.lt x hx)⟩
    split
    · exact Nat.lt_succ_self n
    · exact ht

end Positions

/-! ## Growing a set -/

theorem growSet_positions {count last : Nat} {chosen : List Nat} (h : Positions last chosen)
    (w : Words) : Positions (last + count) (growSet count last chosen w) := by
  induction count generalizing last chosen w with
  | zero => exact h
  | succ count ih =>
    rw [growSet, Nat.add_comm count, ← Nat.add_assoc]
    exact ih (h.grow (w.below_lt (Nat.succ_pos last))) _

theorem length_growSet (count last : Nat) (chosen : List Nat) (w : Words) :
    (growSet count last chosen w).length = chosen.length + count := by
  induction count generalizing last chosen w with
  | zero => rfl
  | succ count ih => rw [growSet, ih, List.length_cons, Nat.add_right_comm, Nat.add_assoc]

/-! ## Exchanges -/

section Exchanges

variable {α : Type}

theorem swapIfInBounds_perm (xs : Array α) (i j : Nat) :
    (xs.swapIfInBounds i j).toList.Perm xs.toList := by
  rw [Array.swapIfInBounds_def]
  split_ifs
  · exact (Array.swap_perm ..).toList
  all_goals rfl

theorem shuffleFront_perm (count start : Nat) (places : Array Nat) (w : Words) :
    (shuffleFront count start places w).toList.Perm places.toList := by
  induction count generalizing start places w with
  | zero => rfl
  | succ count ih => exact (ih ..).trans (swapIfInBounds_perm ..)

theorem shuffleFrom_perm (count start : Nat) (pool : Pool) (xs : Array α) (w : Words) :
    (shuffleFrom count start pool xs w).toList.Perm xs.toList := by
  induction count generalizing start pool xs w with
  | zero => rfl
  | succ count ih => exact (ih ..).trans (swapIfInBounds_perm ..)

/-- A shuffled array has the same elements, each as often as before. -/
theorem shuffle_perm (xs : Array α) (w : Words) : (shuffle xs w).toList.Perm xs.toList :=
  shuffleFrom_perm ..

end Exchanges

/-! ## Samples -/

/-- **A sample holds different positions**, all of them below the bound. -/
theorem sample_positions {n k : Nat} (hk : k ≤ n) (w : Words) : Positions n (sample n k w) := by
  rw [sample]
  split_ifs
  · -- the set begins at `n - k`, so that its `k` steps end at the bound
    have h : Positions (n - k + k) (growSet k (n - k) [] w) :=
      growSet_positions ⟨List.nodup_nil, by simp⟩ w
    rwa [Nat.sub_add_cancel hk] at h
  · have hperm := shuffleFront_perm k 0 (Array.range n) w
    rw [Array.toList_range] at hperm
    refine Positions.take ⟨hperm.nodup_iff.2 List.nodup_range, fun x hx => ?_⟩ k
    exact List.mem_range.1 (hperm.mem_iff.1 hx)

/-- **A sample has as many positions** as were asked for. -/
theorem length_sample {n k : Nat} (hk : k ≤ n) (w : Words) : (sample n k w).length = k := by
  rw [sample]
  split_ifs
  · rw [length_growSet, List.length_nil, Nat.zero_add]
  · rw [List.length_take, (shuffleFront_perm k 0 (Array.range n) w).length_eq,
      Array.toList_range, List.length_range, Nat.min_eq_left hk]

end MusicCatalog.Random
