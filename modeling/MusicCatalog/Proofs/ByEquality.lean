import Mathlib.Algebra.BigOperators.Group.Finset.Basic
import Mathlib.Algebra.Order.BigOperators.Group.Finset
import Mathlib.Data.List.Perm.Subperm
import MusicCatalog.Proofs.ByPosition
import MusicCatalog.Proofs.Json.Equality

/-!
# Choosing together with equals

The chosen pieces are those that a shuffle puts first, and whatever is equal to one of them is free
too. So the free pieces make up whole classes of equal pieces: no more classes than pieces were
chosen, and no fewer pieces.

* `chosen`, `chosen_subperm`, `length_chosen`: the chosen pieces are so many of the listed ones;
* `tiers_equality`: the tier of a piece depends on its class only;
* `FreeClasses`, `freeClasses_of_tiers`: the entries that are free are those of some classes;
* **`entries_equality`**: with equals, which pieces are free and how many.
-/

namespace MusicCatalog.OfferRule

open MusicCatalog.Random

variable {rule : OfferRule} {links : Links} {pieces : List Piece} {es : List Entry} {w : Words}

/-! ## Chosen pieces -/

/-- The pieces that a shuffle puts first. -/
def chosen (rule : OfferRule) (pieces : List Piece) (w : Words) : List Piece :=
  (shuffle pieces.toArray w).toList.take (rule.amount pieces.length)

/-- The chosen pieces stand at different places of the list. -/
theorem chosen_subperm (rule : OfferRule) (pieces : List Piece) (w : Words) :
    (rule.chosen pieces w).Subperm pieces :=
  (List.take_sublist ..).subperm.trans (shuffle_perm pieces.toArray w).subperm

theorem length_chosen (rule : OfferRule) (pieces : List Piece) (w : Words) :
    (rule.chosen pieces w).length = min rule.freeSlots.toNat pieces.length := by
  rw [chosen, List.length_take, (shuffle_perm pieces.toArray w).length_eq]
  exact Nat.min_eq_left (rule.amount_le pieces.length)

/-- The classes of the chosen pieces. -/
def chosenKinds (rule : OfferRule) (pieces : List Piece) (w : Words) : Finset Piece.Kind :=
  ((rule.chosen pieces w).map Piece.kind).toFinset

theorem card_chosenKinds_le (rule : OfferRule) (pieces : List Piece) (w : Words) :
    (rule.chosenKinds pieces w).card ≤ min rule.freeSlots.toNat pieces.length := by
  rw [← rule.length_chosen pieces w, ← List.length_map (f := Piece.kind)]
  exact List.toFinset_card_le _

theorem kind_mem_chosenKinds {p : Piece} :
    p.kind ∈ rule.chosenKinds pieces w ↔ ∃ q ∈ rule.chosen pieces w, q.same p := by
  simp only [chosenKinds, List.mem_toFinset, List.mem_map, Piece.kind_eq_iff]

/-! ## Tiers -/

theorem freeFlags_equality (hequality : rule.selection = .equality) (pieces : List Piece)
    (w : Words) :
    rule.freeFlags pieces w = pieces.map fun p => decide (p.kind ∈ rule.chosenKinds pieces w) := by
  simp only [freeFlags, hequality]
  refine List.map_congr_left fun p _ => ?_
  rw [Bool.eq_iff_iff, List.any_eq_true, decide_eq_true_iff, kind_mem_chosenKinds]
  exact exists_congr fun q => and_congr_right fun _ => Piece.same_comm

/-- With equals the tier of a piece depends on its class only. -/
theorem tiers_equality (hequality : rule.selection = .equality) (pieces : List Piece) (w : Words) :
    (rule.freeFlags pieces w).map tierOf = pieces.map fun p =>
      if p.kind ∈ rule.chosenKinds pieces w then .free else .pro := by
  rw [freeFlags_equality hequality, List.map_map]
  refine List.map_congr_left fun p _ => ?_
  simp [tierOf]

/-! ## Classes -/

/-- The free entries are those of some classes of equal pieces, all of which occur, and so many as
these classes have members among the pieces. -/
structure FreeClasses (pieces : List Piece) (es : List Entry) (classes : Finset Piece.Kind) :
    Prop where
  occurs : ∀ c ∈ classes, ∃ p ∈ pieces, p.kind = c
  free_iff : List.Forall₂ (fun p e => e.tier = .free ↔ p.kind ∈ classes) pieces es
  countP_eq : (es.countP fun e => e.tier = .free) =
    ∑ c ∈ classes, pieces.countP fun p => p.kind = c

section Classes

variable {classes : Finset Piece.Kind}
  (htiers : es.map Entry.tier = pieces.map fun p => if p.kind ∈ classes then .free else .pro)

include htiers

theorem forall₂_of_tiers :
    List.Forall₂ (fun p e => e.tier = .free ↔ p.kind ∈ classes) pieces es := by
  have heq : List.Forall₂ Eq (pieces.map fun p => if p.kind ∈ classes then Tier.free else .pro)
      (es.map Entry.tier) := List.forall₂_eq_eq_eq ▸ htiers.symm
  rw [List.forall₂_map_left_iff, List.forall₂_map_right_iff] at heq
  refine heq.imp fun p e h => ?_
  rw [← h]
  split <;> simp [*]

theorem countP_of_tiers :
    (es.countP fun e => e.tier = .free) = pieces.countP fun p => p.kind ∈ classes := by
  have h := congrArg (List.countP (· = Tier.free)) htiers
  rw [List.countP_map, List.countP_map] at h
  refine h.trans (List.countP_congr fun p _ => ?_)
  simp

theorem freeClasses_of_tiers (hoccurs : ∀ c ∈ classes, ∃ p ∈ pieces, p.kind = c) :
    FreeClasses pieces es classes where
  occurs := hoccurs
  free_iff := forall₂_of_tiers htiers
  countP_eq := by
    have hkinds : ((pieces.map Piece.kind).toFinset.filter (· ∈ classes)) = classes := by
      ext c
      simpa using hoccurs c
    have hcount := Finset.sum_filter_count_eq_countP (· ∈ classes) (pieces.map Piece.kind)
    rw [hkinds, List.countP_map] at hcount
    rw [countP_of_tiers htiers]
    refine hcount.symm.trans (Finset.sum_congr rfl fun c _ => ?_)
    rw [List.count_eq_countP, List.countP_map]
    exact List.countP_congr fun p _ => by simp

end Classes

namespace FreeClasses

variable {classes : Finset Piece.Kind} (h : FreeClasses pieces es classes)

include h

theorem tier_eq_free_iff {x : Piece × Entry} (hx : x ∈ pieces.zip es) :
    x.2.tier = .free ↔ x.1.kind ∈ classes := List.forall₂_zip h.free_iff hx

/-- Equal pieces have the same tier. -/
theorem tier_eq {x y : Piece × Entry} (hx : x ∈ pieces.zip es) (hy : y ∈ pieces.zip es)
    (hsame : x.1.same y.1) : x.2.tier = y.2.tier := by
  have hkind : x.1.kind = y.1.kind := Piece.kind_eq_iff.2 hsame
  have hiff : x.2.tier = .free ↔ y.2.tier = .free := by
    rw [h.tier_eq_free_iff hx, h.tier_eq_free_iff hy, hkind]
  cases hx : x.2.tier <;> cases hy : y.2.tier <;> simp_all

/-- Of no class nothing is free. -/
theorem forall_pro (hempty : classes = ∅) : ∀ e ∈ es, e.tier = .pro := by
  intro e he
  have hcount := h.countP_eq
  rw [hempty, Finset.sum_empty, List.countP_eq_zero] at hcount
  have hnot : e.tier ≠ .free := by simpa using hcount e he
  cases htier : e.tier with
  | free => exact absurd htier hnot
  | pro => rfl

/-- If so many are free as there are pieces, all are. -/
theorem forall_free (hle : pieces.length ≤ es.countP fun e => e.tier = .free) :
    ∀ e ∈ es, e.tier = .free := by
  rw [h.free_iff.length_eq] at hle
  simpa using List.countP_eq_length.1 (le_antisymm List.countP_le_length hle)

/-- Of pieces that are all different, no more are free than there are classes. -/
theorem countP_le_card (hdistinct : pieces.Pairwise fun p q => ¬ p.same q) :
    (es.countP fun e => e.tier = .free) ≤ classes.card := by
  rw [h.countP_eq, Finset.card_eq_sum_ones]
  refine Finset.sum_le_sum fun c _ => ?_
  have hnodup : (pieces.map Piece.kind).Nodup := by
    refine List.pairwise_map.2 (hdistinct.imp fun hne => ?_)
    rwa [ne_eq, Piece.kind_eq_iff]
  have hcount := List.nodup_iff_count_le_one.1 hnodup c
  rw [List.count_eq_countP, List.countP_map] at hcount
  refine (List.countP_congr fun p _ => ?_).trans_le hcount
  simp

end FreeClasses

/-! ## Entries -/

section Chosen

variable (htiers : es.map Entry.tier = pieces.map fun p =>
  if p.kind ∈ rule.chosenKinds pieces w then .free else .pro)

include htiers

theorem freeClasses_chosen : FreeClasses pieces es (rule.chosenKinds pieces w) := by
  refine freeClasses_of_tiers htiers fun c hc => ?_
  obtain ⟨q, hq, rfl⟩ := List.mem_map.1 (List.mem_toFinset.1 hc)
  exact ⟨q, (rule.chosen_subperm pieces w).subset hq, rfl⟩

/-- At least the chosen pieces are free. -/
theorem min_le_countP :
    min rule.freeSlots.toNat pieces.length ≤ es.countP fun e => e.tier = .free := by
  have hall : ∀ q ∈ rule.chosen pieces w, q.kind ∈ rule.chosenKinds pieces w := fun q hq =>
    kind_mem_chosenKinds.2 ⟨q, hq, Piece.equality.refl q⟩
  calc min rule.freeSlots.toNat pieces.length
      = (rule.chosen pieces w).length := (rule.length_chosen pieces w).symm
    _ = (rule.chosen pieces w).countP fun q => q.kind ∈ rule.chosenKinds pieces w :=
        (List.countP_eq_length.2 fun q hq => decide_eq_true (hall q hq)).symm
    _ ≤ pieces.countP fun p => p.kind ∈ rule.chosenKinds pieces w :=
        (rule.chosen_subperm pieces w).countP_le _
    _ = es.countP fun e => e.tier = .free := (countP_of_tiers htiers).symm

end Chosen

/-- **With equals the free pieces make up classes.** So many pieces are chosen as there are slots, or
all of them, and each piece that is equal to a chosen one is free, so equal pieces have the same tier.
At least as many pieces are free as were chosen, and they make up at most as many classes of equal
pieces; if no two pieces are equal, just so many are free. Without slots no piece is free, and with
a slot for each piece all are. -/
theorem entries_equality (hequality : rule.selection = .equality)
    (hnamed : ∀ p ∈ pieces, ∃ name, p.get? "filename" = some (.str name)) (links : Links)
    (w : Words) :
    ∃ (chosen : List Piece) (classes : Finset Piece.Kind) (es : List Entry),
      chosen.Subperm pieces ∧
      chosen.length = min rule.freeSlots.toNat pieces.length ∧
      rule.entries links pieces w = .ok es ∧
      List.Forall₂ (fun p e => e.tier = .free ↔ ∃ q ∈ chosen, q.same p) pieces es ∧
      (∀ x ∈ pieces.zip es, ∀ y ∈ pieces.zip es, x.1.same y.1 → x.2.tier = y.2.tier) ∧
      min rule.freeSlots.toNat pieces.length ≤ (es.countP fun e => e.tier = .free) ∧
      FreeClasses pieces es classes ∧
      classes.card ≤ min rule.freeSlots.toNat pieces.length ∧
      ((pieces.Pairwise fun p q => ¬ p.same q) →
        (es.countP fun e => e.tier = .free) = min rule.freeSlots.toNat pieces.length) ∧
      (rule.freeSlots = 0 → ∀ e ∈ es, e.tier = .pro) ∧
      (pieces.length ≤ rule.freeSlots.toNat → ∀ e ∈ es, e.tier = .free) := by
  obtain ⟨es, hes, htiers⟩ := entries_named hnamed rule links w
  rw [tiers_equality hequality] at htiers
  have hclasses := freeClasses_chosen htiers
  have hcard := rule.card_chosenKinds_le pieces w
  have hle := min_le_countP htiers
  have hclosure : List.Forall₂ (fun p e => e.tier = .free ↔ ∃ q ∈ rule.chosen pieces w, q.same p)
      pieces es := hclasses.free_iff.imp fun p e h => h.trans kind_mem_chosenKinds
  refine ⟨_, _, es, rule.chosen_subperm pieces w, rule.length_chosen pieces w, hes, hclosure,
    fun x hx y hy => hclasses.tier_eq hx hy, hle, hclasses, hcard, fun hdistinct => ?_,
    fun hnone => ?_, fun hfull => ?_⟩
  · exact le_antisymm ((hclasses.countP_le_card hdistinct).trans hcard) hle
  · rw [hnone] at hcard
    exact hclasses.forall_pro (Finset.card_eq_zero.1 (Nat.le_zero.1 (hcard.trans (Nat.min_le_left ..))))
  · exact hclasses.forall_free ((Nat.min_eq_right hfull).symm.trans_le hle)

/-- A piece with a number. -/
def gained (gain : Decimal.Binary64) : Piece :=
  .ofMembers [("filename", .str "a.mp3"), ("gain", .float gain)]

/-- Two pieces that differ in the sign of a zero only, and another one. -/
def twins : List Piece :=
  [gained ⟨false, .zero⟩, .ofMembers [("filename", .str "b.mp3")], gained ⟨true, .zero⟩]

theorem entries_equality_twins :
    (∀ p ∈ twins, ∃ name, p.get? "filename" = some (.str name)) ∧
      ∃ e f g, (OfferRule.mk 1 .equality).entries ⟨"http://pages", "http://files"⟩ twins
          (.cycle [7]) = .ok [e, f, g] ∧
        e.tier = g.tier ∧ 1 ≤ [e, f, g].countP fun e => e.tier = .free := by
  have hnamed : ∀ p ∈ twins, ∃ name, p.get? "filename" = some (.str name) := by
    simp only [twins, List.forall_mem_cons]
    exact ⟨⟨"a.mp3", rfl⟩, ⟨"b.mp3", rfl⟩, ⟨"a.mp3", rfl⟩, List.forall_mem_nil _⟩
  have hequality : (OfferRule.mk 1 .equality).selection = .equality := rfl
  obtain ⟨_, _, es, -, -, hes, hclosure, hequal, hle, -⟩ :=
    entries_equality hequality hnamed ⟨"http://pages", "http://files"⟩ (.cycle [7])
  obtain ⟨e, f, g, rfl⟩ := List.length_eq_three.1 hclosure.length_eq.symm
  have hsame : (gained ⟨false, .zero⟩).same (gained ⟨true, .zero⟩) := by decide
  have htwins : e.tier = g.tier :=
    hequal (gained ⟨false, .zero⟩, e) (by simp [twins]) (gained ⟨true, .zero⟩, g) (by simp [twins]) hsame
  exact ⟨hnamed, e, f, g, hes, htwins, hle⟩

end MusicCatalog.OfferRule
