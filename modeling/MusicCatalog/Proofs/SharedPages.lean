import MusicCatalog.Proofs.Offer

/-!
# Files that share a page

Every file has a download of its own. The page about it is named for the file less one `.mp3`, so that
a name that has lost this end and the same name with it lead to one page.

* `stem_eq_iff`, `Links.page_eq_append_iff`: the names that lead to a stem and to its page;
* `IsBareOf`: a name and what is left of it, with no end to lose any more;
* `stem_eq_stem_iff`: different names with the same stem;
* **`Links.page_shared`**: which files share their addresses.
-/

namespace MusicCatalog

/-! ## Names with the same stem -/

theorem stem_eq_iff {filename stem : String} :
    Links.stem filename = stem ↔ IsStem filename stem := by
  constructor
  · rintro rfl
    exact isStem_stem filename
  · exact isStem_unique (isStem_stem filename)

/-- The name of the file is the bare one with `.mp3` behind it, and the bare one has no such end. -/
structure IsBareOf (bare filename : String) : Prop where
  eq_append : filename = bare ++ ".mp3"
  ends : ∀ s, bare ≠ s ++ ".mp3"

/-- A bare name is its own stem, and that of the other. -/
theorem IsBareOf.stem_eq_stem {bare filename : String} (h : IsBareOf bare filename) :
    Links.stem bare = Links.stem filename := by
  have hbare : Links.stem bare = bare := stem_eq_iff.2 (.inr ⟨rfl, h.ends⟩)
  have hfilename : Links.stem filename = bare := stem_eq_iff.2 (.inl h.eq_append)
  exact hbare.trans hfilename.symm

theorem IsStem.eq_or_isBareOf {f g stem : String} (hf : IsStem f stem) (hg : IsStem g stem) :
    f = g ∨ IsBareOf f g ∨ IsBareOf g f := by
  obtain hf | ⟨rfl, hbare⟩ := hf
  · obtain hg | ⟨rfl, hbare⟩ := hg
    · exact .inl (hf.trans hg.symm)
    · exact .inr (.inr ⟨hf, hbare⟩)
  · obtain hg | ⟨rfl, -⟩ := hg
    · exact .inr (.inl ⟨hg, hbare⟩)
    · exact .inl rfl

theorem stem_eq_stem_iff {f g : String} :
    Links.stem f = Links.stem g ↔ f = g ∨ IsBareOf f g ∨ IsBareOf g f := by
  constructor
  · intro h
    exact (stem_eq_iff.1 h).eq_or_isBareOf (isStem_stem g)
  · rintro (rfl | h | h)
    · rfl
    · exact h.stem_eq_stem
    · exact h.stem_eq_stem.symm

-- nothing is left of the end alone, and of two ends only the last is lost
example : Links.stem ".mp3" = Links.stem "" ∧ Links.stem "a.mp3.mp3" ≠ Links.stem "a" := by decide

/-! ## Addresses -/

namespace Links

variable (links : Links)

theorem download_eq_iff {f g : String} : links.download f = links.download g ↔ f = g :=
  String.append_right_inj _

theorem page_eq_append_iff {filename s : String} :
    links.page filename = links.baseUrl ++ "/" ++ s ↔ IsStem filename s := by
  rw [page, String.append_right_inj, stem_eq_iff]

theorem page_eq_iff {f g : String} :
    links.page f = links.page g ↔ f = g ∨ IsBareOf f g ∨ IsBareOf g f := by
  rw [page, page, String.append_right_inj, stem_eq_stem_iff]

/-- **Files share a page in one way only.** Downloads are the same for the same names alone. Pages are
the same for the same names, and for two of which one is the other with `.mp3` behind it, while the
shorter has no such end. The page of a stem belongs to the stem with `.mp3` behind it, and to the stem
alone if it has no such end: one end is lost and no more. -/
theorem page_shared (f g : String) :
    (links.download f = links.download g ↔ f = g) ∧
    (links.page f = links.page g ↔ f = g ∨ IsBareOf f g ∨ IsBareOf g f) ∧
    ∀ s, links.page f = links.baseUrl ++ "/" ++ s ↔ IsStem f s :=
  ⟨links.download_eq_iff, links.page_eq_iff, fun _ => links.page_eq_append_iff⟩

end Links

end MusicCatalog
