import MusicCatalog.Proofs.Relisted

/-!
# Chance decides the tiers only

Entries depend on chance in their tiers alone. Whether there are entries, how many, in which order,
and what each of them says besides its tier follows from the pieces.

* `Entry.Describes.alike`: what an entry owes to its piece;
* `OfferRule.SameButTiers`: two outcomes for the same pieces;
* **`OfferRule.entries_alike`**: two choices for the same pieces, however they are made.
-/

namespace MusicCatalog

open Json MusicCatalog.Random

/-! ## What a piece decides -/

theorem Piece.ext_fields {p q : Piece} (h : p.fields = q.fields) : p = q := by
  obtain ⟨fields, _⟩ := p
  obtain ⟨fields', _⟩ := q
  obtain rfl : fields = fields' := h
  rfl

/-- Entries that describe the same piece differ in their tiers at most. -/
theorem Entry.Describes.alike {links : Links} {p : Piece} {e f : Entry} (he : e.Describes links p)
    (hf : f.Describes links p) : e.Alike f := by
  obtain ⟨filename, stem, hname, hstem, hdownload, hpage⟩ := he.links
  obtain ⟨filename', stem', hname', hstem', hdownload', hpage'⟩ := hf.links
  obtain rfl : filename = filename' := by
    rw [hname] at hname'
    cases hname'
    rfl
  obtain rfl := isStem_unique hstem hstem'
  exact ⟨Piece.ext_fields (hf.fields.trans he.fields.symm), hdownload'.trans hdownload.symm,
    hpage'.trans hpage.symm⟩

namespace OfferRule

variable {links : Links} {pieces : List Piece}

/-! ## Two choices -/

/-- Two outcomes for the same pieces: one and the same failure, which names the first piece without a
file name, or entries of the pieces, one by one, that differ in their tiers at most. -/
inductive SameButTiers (links : Links) (pieces : List Piece) :
    Except Failure (List Entry) → Except Failure (List Entry) → Prop
  | malformed {position : Nat} {failure : Failure} (hfirst : IsFirstNameless pieces position)
    (hfailure : failure =
      .malformedRecord ("piece at position " ++ toString position ++ " has no filename")) :
    SameButTiers links pieces (.error failure) (.error failure)
  | made {es es' : List Entry}
    (hnamed : ∀ p ∈ pieces, ∃ name, p.get? "filename" = some (.str name))
    (h : List.Forall₂ (Entry.Describes links) pieces es)
    (h' : List.Forall₂ (Entry.Describes links) pieces es')
    (halike : List.Forall₂ Entry.Alike es es') : SameButTiers links pieces (.ok es) (.ok es')

theorem forall₂_alike {es es' : List Entry} (h : List.Forall₂ (Entry.Describes links) pieces es)
    (h' : List.Forall₂ (Entry.Describes links) pieces es') : List.Forall₂ Entry.Alike es es' := by
  induction h generalizing es' with
  | nil =>
    cases h'
    exact .nil
  | cons he _ ih =>
    obtain _ | ⟨hf, hfs⟩ := h'
    exact .cons (he.alike hf) (ih hfs)

theorem sameButTiers_entries (rule rule' : OfferRule) (links : Links) (pieces : List Piece)
    (w w' : Words) :
    SameButTiers links pieces (rule.entries links pieces w) (rule'.entries links pieces w') := by
  cases hfirst : firstNameless? pieces with
  | some position =>
    rw [entries, entries, hfirst]
    exact .malformed (firstNameless?_eq_some.1 hfirst) rfl
  | none =>
    have hnames := firstNameless?_eq_none.1 hfirst
    have hnamed : ∀ p ∈ pieces, ∃ name, p.get? "filename" = some (.str name) := fun p hp =>
      isSome_filename?_iff.1 (hnames p hp)
    have hes : rule.entries links pieces w = .ok _ := rule.entries_eq_ok_iff.2 ⟨hnames, rfl⟩
    have hes' : rule'.entries links pieces w' = .ok _ := rule'.entries_eq_ok_iff.2 ⟨hnames, rfl⟩
    have h := (rule.entries_eq_ok hes).1
    have h' := (rule'.entries_eq_ok hes').1
    rw [hes, hes']
    exact .made hnamed h h' (forall₂_alike h h')

theorem entries_eq_error_iff (rule : OfferRule) (links : Links) (pieces : List Piece) (w : Words) :
    (∃ failure, rule.entries links pieces w = .error failure) ↔
      ∃ p ∈ pieces, ∀ name, p.get? "filename" ≠ some (.str name) := by
  rw [entries]
  cases hfirst : firstNameless? pieces with
  | some position =>
    obtain ⟨p, hp, hnameless⟩ := (firstNameless?_eq_some.1 hfirst).nameless
    exact iff_of_true ⟨_, rfl⟩ ⟨p, List.mem_of_getElem? hp, hnameless⟩
  | none =>
    refine iff_of_false (fun h => ?_) fun h => ?_
    · obtain ⟨_, h⟩ := h
      cases h
    · obtain ⟨p, hp, hnameless⟩ := h
      obtain ⟨name, hname⟩ := isSome_filename?_iff.1 (firstNameless?_eq_none.1 hfirst p hp)
      exact hnameless name hname

/-- **Chance decides the tiers only.** Of two choices for the same pieces, whatever the number of slots,
the way of choosing and the random words, either both fail and name the same piece, the first without
a file name, or both give entries that differ in their tiers at most. There is a failure exactly if
some piece has no file name. All but the tier of an entry comes from its own piece: wherever this
piece stands in other lists, its entry is alike. -/
theorem entries_alike (rule rule' : OfferRule) (links : Links) (pieces : List Piece)
    (w w' : Words) :
    SameButTiers links pieces (rule.entries links pieces w) (rule'.entries links pieces w') ∧
    ((∃ failure, rule.entries links pieces w = .error failure) ↔
      ∃ p ∈ pieces, ∀ name, p.get? "filename" ≠ some (.str name)) ∧
    ∀ es pieces' es', rule.entries links pieces w = .ok es →
      rule'.entries links pieces' w' = .ok es' →
      ∀ x ∈ pieces.zip es, ∀ y ∈ pieces'.zip es', x.1 = y.1 → x.2.Alike y.2 := by
  refine ⟨sameButTiers_entries rule rule' links pieces w w', rule.entries_eq_error_iff links pieces w,
    fun es pieces' es' hes hes' x hx y hy hpiece => ?_⟩
  have hdescribes : x.2.Describes links x.1 := List.forall₂_zip (rule.entries_eq_ok hes).1 hx
  have hdescribes' : y.2.Describes links y.1 := List.forall₂_zip (rule'.entries_eq_ok hes').1 hy
  exact hdescribes.alike (hpiece ▸ hdescribes')

end OfferRule

end MusicCatalog
