import MusicCatalog.Proofs.Offer

/-!
# Choosing by position

The places of a sample are marked one after another in a mask with a flag for each piece. All of them
are in the mask and no two are the same, so just so many flags are set as places were asked for.

* `mark`: marking places, as long as they are in the mask;
* `flagsOf`, **`mark_flagsOf`**: the flags of some places, and what marking further ones makes of them;
* `IsChoice`, `isChoice_sample`: places that can be marked, and the sample is a list of such;
* `entries_named`: pieces with file names have entries, and their flags say which tiers these have;
* **`entries_index`**: by position, which pieces are free and how many.
-/

namespace MusicCatalog.OfferRule

open Json MusicCatalog.Random

/-! ## Masks -/

/-- Marks places in a mask one after another. There is no result if a place is outside of it. -/
def mark (mask : List Bool) : List Nat → Option (List Bool)
  | [] => some mask
  | i :: places => if i < mask.length then mark (mask.set i true) places else none

/-- A flag for each place below `n`, set if the place is one of the chosen. -/
def flagsOf (n : Nat) (chosen : List Nat) : List Bool := (List.range n).map fun i => chosen.contains i

@[simp] theorem length_flagsOf (n : Nat) (chosen : List Nat) : (flagsOf n chosen).length = n := by
  simp [flagsOf]

theorem flagsOf_nil (n : Nat) : flagsOf n [] = List.replicate n false := by
  simp [flagsOf]

/-- Flags do not depend on the order in which places were chosen. -/
theorem flagsOf_congr {n : Nat} {chosen chosen' : List Nat} (h : ∀ i, i ∈ chosen ↔ i ∈ chosen') :
    flagsOf n chosen = flagsOf n chosen' := by
  refine List.map_congr_left fun i _ => ?_
  rw [Bool.eq_iff_iff, List.contains_iff_mem, List.contains_iff_mem, h i]

/-- One more place is marked. -/
theorem set_flagsOf (n i : Nat) (chosen : List Nat) :
    (flagsOf n chosen).set i true = flagsOf n (i :: chosen) := by
  refine List.ext_getElem (by simp) fun j hj _ => ?_
  by_cases h : i = j
  · simp [flagsOf, h]
  · simp [flagsOf, h, Ne.symm h]

/-- **Marking places** sets their flags, besides those that were set before. -/
theorem mark_flagsOf {n : Nat} {places : List Nat} (h : ∀ i ∈ places, i < n) (chosen : List Nat) :
    mark (flagsOf n chosen) places = some (flagsOf n (places ++ chosen)) := by
  induction places generalizing chosen with
  | nil => rfl
  | cons i places ih =>
    obtain ⟨hi, hplaces⟩ := List.forall_mem_cons.1 h
    rw [mark, if_pos (by simpa using hi), set_flagsOf, ih hplaces]
    exact congrArg some (flagsOf_congr fun j => by simp [or_left_comm])

/-- The places are a choice of so many out of `n`: they are all different, and marking them in an
empty mask never leaves it and gives the flags. -/
structure IsChoice (n amount : Nat) (chosen : List Nat) (flags : List Bool) : Prop where
  amount_le : amount ≤ n
  length_eq : chosen.length = amount
  nodup : chosen.Nodup
  lt : ∀ i ∈ chosen, i < n
  marked : mark (List.replicate n false) chosen = some flags

/-- A sample is a choice. -/
theorem isChoice_sample {n amount : Nat} (h : amount ≤ n) (w : Words) :
    IsChoice n amount (sample n amount w) (flagsOf n (sample n amount w)) where
  amount_le := h
  length_eq := length_sample h w
  nodup := (sample_positions h w).nodup
  lt := (sample_positions h w).lt
  marked := by
    rw [← flagsOf_nil, mark_flagsOf (sample_positions h w).lt, List.append_nil]

/-! ## Tiers -/

section Tiers

variable {rule : OfferRule} {links : Links} {pieces : List Piece} {w : Words}

/-- The tier of a flag. -/
def tierOf (isFree : Bool) : Tier := if isFree then .free else .pro

theorem tierOf_isFree (e : Entry) : tierOf e.isFree = e.tier := by
  obtain ⟨piece, tier, downloadUrl, pageUrl⟩ := e
  cases tier <;> rfl

/-- Pieces with file names have entries, and their flags say which tiers these have. -/
theorem entries_named (hnamed : ∀ p ∈ pieces, ∃ name, p.get? "filename" = some (.str name))
    (rule : OfferRule) (links : Links) (w : Words) :
    ∃ es, rule.entries links pieces w = .ok es ∧
      es.map Entry.tier = (rule.freeFlags pieces w).map tierOf := by
  have hnames : ∀ p ∈ pieces, p.filename?.isSome := fun p hp => isSome_filename?_iff.2 (hnamed p hp)
  obtain ⟨es, hes⟩ : ∃ es, rule.entries links pieces w = .ok es :=
    ⟨_, rule.entries_eq_ok_iff.2 ⟨hnames, rfl⟩⟩
  refine ⟨es, hes, ?_⟩
  rw [← (rule.entries_eq_ok hes).2, List.map_map]
  exact List.map_congr_left fun e _ => (tierOf_isFree e).symm

/-- By position the flags are those of a sample, whatever the pieces hold. -/
theorem freeFlags_index (hindex : rule.selection = .index) (pieces : List Piece) (w : Words) :
    rule.freeFlags pieces w =
      flagsOf pieces.length (sample pieces.length (rule.amount pieces.length) w) := by
  simp only [freeFlags, hindex, flagsOf]

/-- By position the tiers depend on the number of pieces only. -/
theorem tiers_index (hindex : rule.selection = .index) (pieces : List Piece) (w : Words) :
    (rule.freeFlags pieces w).map tierOf = (List.range pieces.length).map fun i =>
      if i ∈ sample pieces.length (rule.amount pieces.length) w then .free else .pro := by
  rw [freeFlags_index hindex, flagsOf, List.map_map]
  refine List.map_congr_left fun i _ => ?_
  simp [tierOf]

/-- **By position the choice is exact.** A sample is asked for no more places than there are pieces.
It has just so many, all different and none outside of the mask in which they are marked. The pieces
at these places are free and all others are not: so many are free as there are slots, or all of them.
Of other pieces in the same number those at the same places are free. -/
theorem entries_index (hindex : rule.selection = .index)
    (hnamed : ∀ p ∈ pieces, ∃ name, p.get? "filename" = some (.str name)) (links : Links)
    (w : Words) :
    ∃ chosen es, chosen = sample pieces.length (rule.amount pieces.length) w ∧
      IsChoice pieces.length (rule.amount pieces.length) chosen (rule.freeFlags pieces w) ∧
      rule.entries links pieces w = .ok es ∧
      (es.map Entry.tier = (List.range pieces.length).map fun i =>
        if i ∈ chosen then .free else .pro) ∧
      (es.countP fun e => e.tier = .free) = min rule.freeSlots.toNat pieces.length ∧
      (es.countP fun e => e.tier = .pro) =
        pieces.length - min rule.freeSlots.toNat pieces.length ∧
      ∀ (links' : Links) (pieces' : List Piece), pieces'.length = pieces.length →
        (∀ p ∈ pieces', ∃ name, p.get? "filename" = some (.str name)) →
        ∃ es', rule.entries links' pieces' w = .ok es' ∧
          es'.map Entry.tier = es.map Entry.tier := by
  obtain ⟨es, hes, htiers⟩ := entries_named hnamed rule links w
  have hlength : es.length = pieces.length := by
    rw [← es.length_map Entry.tier, htiers, List.length_map, length_freeFlags]
  have hfree : (es.countP fun e => e.tier = .free) = min rule.freeSlots.toNat pieces.length := by
    rw [← rule.countP_freeFlags hindex pieces w, ← (rule.entries_eq_ok hes).2, List.countP_map]
    rfl
  have htotal := Entry.length_eq_tiers es
  have hchoice := isChoice_sample (rule.amount_le pieces.length) w
  rw [← freeFlags_index hindex] at hchoice
  refine ⟨_, es, rfl, hchoice, hes, htiers.trans (tiers_index hindex pieces w), hfree, by omega, ?_⟩
  intro links' pieces' hcount hnamed'
  obtain ⟨es', hes', htiers'⟩ := entries_named hnamed' rule links' w
  refine ⟨es', hes', ?_⟩
  rw [htiers', htiers, tiers_index hindex, tiers_index hindex, hcount]

/-- Three pieces that are the same. -/
def triplets : List Piece := List.replicate 3 (.ofMembers [("filename", .str "same.mp3")])

theorem entries_index_triplets :
    (∀ p ∈ triplets, ∃ name, p.get? "filename" = some (.str name)) ∧
      ∃ es, (OfferRule.mk 2 .index).entries ⟨"http://pages", "http://files"⟩ triplets (.cycle [7]) =
          .ok es ∧
        (es.countP fun e => e.tier = .free) = 2 ∧ (es.countP fun e => e.tier = .pro) = 1 := by
  have hnamed : ∀ p ∈ triplets, ∃ name, p.get? "filename" = some (.str name) := by
    intro p hp
    rw [List.eq_of_mem_replicate hp]
    exact ⟨"same.mp3", rfl⟩
  have hindex : (OfferRule.mk 2 .index).selection = .index := rfl
  obtain ⟨_, es, -, -, hes, -, hfree, hpro, -⟩ :=
    entries_index hindex hnamed ⟨"http://pages", "http://files"⟩ (.cycle [7])
  exact ⟨hnamed, es, hes, hfree, hpro⟩

end Tiers

end MusicCatalog.OfferRule
