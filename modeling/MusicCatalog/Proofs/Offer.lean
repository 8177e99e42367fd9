import Mathlib.Data.List.Forall2
import MusicCatalog.Offer
import MusicCatalog.Proofs.Random.Sampling

/-!
# Offers keep every piece

* `IsStem`, `isStem_stem`, `isStem_unique`: the name of a file less one `.mp3`;
* `Entry.Describes`: an entry has the fields of a piece and the links of its file;
* **`OfferRule.countP_freeFlags`**: by position, exactly so many pieces are free as there are slots;
* `OfferRule.IsFirstNameless`, `OfferRule.firstNameless?_eq_some`: the first piece without a file name;
* `OfferRule.entries_eq_ok_iff`, **`OfferRule.entries_eq_ok`**: each piece has its entry, in the order of
  the pieces.
-/

namespace MusicCatalog

open Json MusicCatalog.Random

/-! ## Links -/

/-- The name is the stem with `.mp3` behind it, or the stem itself if it has no such end. -/
def IsStem (filename stem : String) : Prop :=
  filename = stem ++ ".mp3" ∨ stem = filename ∧ ∀ s, filename ≠ s ++ ".mp3"

theorem isStem_stem (filename : String) : IsStem filename (Links.stem filename) := by
  rw [Links.stem]
  split_ifs with h
  · left
    obtain ⟨cs, hcs⟩ := List.isSuffixOf_iff_suffix.1 h
    have htake : filename.toList.take (filename.toList.length - 4) = cs := by
      rw [← hcs, List.length_append]
      exact List.take_left
    apply String.toList_injective
    rw [htake, String.toList_append, String.toList_ofList, ← hcs]
    rfl
  · right
    refine ⟨rfl, fun s hs => h ?_⟩
    rw [List.isSuffixOf_iff_suffix, hs, String.toList_append]
    exact List.suffix_append s.toList ['.', 'm', 'p', '3']

theorem isStem_unique {filename stem stem' : String} (h : IsStem filename stem)
    (h' : IsStem filename stem') : stem = stem' := by
  obtain rfl | ⟨rfl, hno⟩ := h
  · obtain heq | ⟨-, hno⟩ := h'
    · exact (String.append_left_inj ".mp3").1 heq
    · exact absurd rfl (hno stem)
  · obtain heq | ⟨rfl, -⟩ := h'
    · exact absurd heq (hno stem')
    · rfl

/-- The entry has all fields of the piece, but those of its own names, and the links of its file. -/
structure Entry.Describes (links : Links) (p : Piece) (e : Entry) : Prop where
  fields : e.piece.fields = p.fields.filter fun m => m.1 ∉ ownKeys
  links : ∃ filename stem, p.get? "filename" = some (.str filename) ∧ IsStem filename stem ∧
    e.downloadUrl = links.downloadBase ++ "/" ++ filename ∧
    e.pageUrl = links.baseUrl ++ "/" ++ stem

/-- Entries are free or not. -/
theorem Entry.length_eq_tiers (es : List Entry) :
    es.length = (es.countP fun e => e.tier = .free) + es.countP fun e => e.tier = .pro := by
  rw [List.length_eq_countP_add_countP fun e : Entry => e.tier = .free, Nat.add_right_inj]
  refine List.countP_congr fun e _ => ?_
  cases e.tier <;> simp

namespace OfferRule

variable (rule : OfferRule)

/-! ## Free pieces -/

theorem amount_le (count : Nat) : rule.amount count ≤ count := Nat.min_le_right ..

theorem length_freeFlags (pieces : List Piece) (w : Words) :
    (rule.freeFlags pieces w).length = pieces.length := by
  unfold freeFlags
  cases rule.selection with
  | index => simp
  | equality => simp

/-- **By position** exactly so many pieces are free as there are slots, or all of them. -/
theorem countP_freeFlags (h : rule.selection = .index) (pieces : List Piece) (w : Words) :
    (rule.freeFlags pieces w).countP id = min rule.freeSlots.toNat pieces.length := by
  have hle := rule.amount_le pieces.length
  unfold freeFlags
  simp only [h]
  rw [List.countP_map]
  exact (sample_positions hle w).countP_range.trans (length_sample hle w)

/-! ## Entries -/

section Entries

variable {links : Links} {pieces : List Piece} {flags : List Bool}

theorem filename?_eq_some {p : Piece} {filename : String} :
    p.filename? = some filename ↔ p.get? "filename" = some (.str filename) := by
  unfold Piece.filename?
  split <;> simp_all

theorem describes_entry {p : Piece} {filename : String} (h : p.filename? = some filename)
    (isFree : Bool) : (entry links p isFree).Describes links p := by
  refine ⟨by simp [entry, Entry.attach, Piece.without], filename, Links.stem filename,
    filename?_eq_some.1 h, isStem_stem filename, ?_, ?_⟩
  · rw [entry, h]
    rfl
  · rw [entry, h]
    rfl

theorem isFree_entry (p : Piece) (isFree : Bool) : (entry links p isFree).isFree = isFree := by
  cases isFree <;> rfl

theorem forall₂_entry (hlength : flags.length = pieces.length) :
    List.Forall₂ (fun p e => ∃ isFree, e = entry links p isFree) pieces
      (pieces.zipWith (entry links) flags) := by
  induction pieces generalizing flags with
  | nil => exact .nil
  | cons p pieces ih =>
    obtain ⟨isFree, flags, rfl⟩ := List.exists_cons_of_length_eq_add_one hlength
    exact .cons ⟨isFree, rfl⟩ (ih (Nat.succ.inj hlength))

theorem map_isFree_zipWith (hlength : flags.length = pieces.length) :
    (pieces.zipWith (entry links) flags).map Entry.isFree = flags := by
  induction pieces generalizing flags with
  | nil => rw [List.zipWith_nil_left, List.length_eq_zero_iff.1 hlength, List.map_nil]
  | cons p pieces ih =>
    obtain ⟨isFree, flags, rfl⟩ := List.exists_cons_of_length_eq_add_one hlength
    rw [List.zipWith_cons_cons, List.map_cons, isFree_entry, ih (Nat.succ.inj hlength)]

theorem firstNameless?_eq_none :
    firstNameless? pieces = none ↔ ∀ p ∈ pieces, p.filename?.isSome := by
  simp [firstNameless?, List.findIdx?_eq_none_iff]

theorem isSome_filename?_iff {p : Piece} :
    p.filename?.isSome ↔ ∃ s, p.get? "filename" = some (.str s) := by
  simp only [Option.isSome_iff_exists, filename?_eq_some]

theorem isNone_filename?_iff {p : Piece} :
    p.filename?.isNone ↔ ∀ s, p.get? "filename" ≠ some (.str s) := by
  simp only [Option.isNone_iff_eq_none, Option.eq_none_iff_forall_ne_some, ne_eq,
    filename?_eq_some]

/-- The piece at this position, counted from zero, is the first whose file name is missing or no
string. -/
structure IsFirstNameless (pieces : List Piece) (position : Nat) : Prop where
  nameless : ∃ p, pieces[position]? = some p ∧ ∀ s, p.get? "filename" ≠ some (.str s)
  named : ∀ i < position, ∃ p s, pieces[i]? = some p ∧ p.get? "filename" = some (.str s)

theorem firstNameless?_eq_some {position : Nat} :
    firstNameless? pieces = some position ↔ IsFirstNameless pieces position := by
  rw [firstNameless?, List.findIdx?_eq_some_iff_getElem]
  simp only [isNone_filename?_iff]
  constructor
  · rintro ⟨hlt, hp, hbefore⟩
    refine ⟨⟨_, List.getElem?_eq_getElem hlt, hp⟩, fun i hi => ?_⟩
    obtain ⟨s, hs⟩ := not_forall.1 (hbefore i hi)
    exact ⟨_, s, List.getElem?_eq_getElem (Nat.lt_trans hi hlt), not_not.1 hs⟩
  · rintro ⟨⟨p, hp, hnameless⟩, hbefore⟩
    obtain ⟨hlt, rfl⟩ := List.getElem?_eq_some_iff.1 hp
    refine ⟨hlt, hnameless, fun i hi hnone => ?_⟩
    obtain ⟨q, s, hq, hs⟩ := hbefore i hi
    obtain ⟨_, rfl⟩ := List.getElem?_eq_some_iff.1 hq
    exact hnone s hs

theorem entries_eq_ok_iff {w : Words} {es : List Entry} :
    rule.entries links pieces w = .ok es ↔
      (∀ p ∈ pieces, p.filename?.isSome) ∧
        es = pieces.zipWith (entry links) (rule.freeFlags pieces w) := by
  rw [entries, ← firstNameless?_eq_none]
  cases firstNameless? pieces with
  | none => simp [eq_comm]
  | some position => simp

/-- **Offers keep every piece**: each has its entry, in the order of the pieces, free or not as its
flag says. -/
theorem entries_eq_ok {w : Words} {es : List Entry} (h : rule.entries links pieces w = .ok es) :
    List.Forall₂ (Entry.Describes links) pieces es ∧
      es.map Entry.isFree = rule.freeFlags pieces w := by
  obtain ⟨hnamed, rfl⟩ := rule.entries_eq_ok_iff.1 h
  have hlength := rule.length_freeFlags pieces w
  have hentries : List.Forall₂ _ pieces (pieces.zipWith (entry links) (rule.freeFlags pieces w)) :=
    (List.forall₂_and_left ..).2 ⟨hnamed, forall₂_entry hlength⟩
  refine ⟨hentries.imp ?_, map_isFree_zipWith hlength⟩
  rintro p e ⟨hp, isFree, rfl⟩
  obtain ⟨filename, hname⟩ := Option.isSome_iff_exists.1 hp
  exact describes_entry hname isFree

end Entries

end OfferRule

end MusicCatalog
