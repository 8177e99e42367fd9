import Mathlib.Data.List.DropRight
import MusicCatalog.Site

/-!
# Slashes at the end of a base

* `slashed`, `IsTrimmed`: a base, and the text that it is without slashes at the end;
* **`isTrimmed_trimSlashes`**, `IsTrimmed.unique`: this is what builders keep of a text, and nothing
  else is;
* `IsTrimmed.longest`: no longer part at the front of a text ends without a slash;
* `trimSlashes_slashed`, `trimSlashes_trimSlashes`: slashes make no difference, and nothing is left to
  drop.
-/

namespace MusicCatalog

/-- The text is the base with slashes behind it, and the base has none at its end. -/
structure IsTrimmed (url base : String) : Prop where
  slashes : ∃ n, url = base ++ String.ofList (List.replicate n '/')
  ends : ∀ s, base ≠ s ++ "/"

theorem toList_trimSlashes (url : String) :
    (trimSlashes url).toList = url.toList.rdropWhile (· == '/') := String.toList_ofList

theorem isTrimmed_trimSlashes (url : String) : IsTrimmed url (trimSlashes url) where
  slashes := by
    have hall : ∀ c ∈ url.toList.rtakeWhile (· == '/'), c = '/' := by
      intro c hc
      simpa using List.mem_rtakeWhile_imp hc
    refine ⟨(url.toList.rtakeWhile (· == '/')).length, String.toList_injective ?_⟩
    rw [String.toList_append, String.toList_ofList, toList_trimSlashes,
      ← List.eq_replicate_of_mem hall]
    exact (List.rdropWhile_append_rtakeWhile ..).symm
  ends := by
    intro s hs
    have htrimmed : (trimSlashes url).toList = s.toList ++ ['/'] := by
      rw [hs, String.toList_append]
      rfl
    rw [toList_trimSlashes] at htrimmed
    have hlast := List.rdropWhile_last_not (· == '/') url.toList (by simp [htrimmed])
    simp [htrimmed] at hlast

/-- The text with so many slashes behind it. -/
def slashed (url : String) (n : Nat) : String := url ++ String.ofList (List.replicate n '/')

namespace IsTrimmed

variable {url base base' : String}

theorem prefix_url (h : IsTrimmed url base) : base.toList <+: url.toList := by
  obtain ⟨n, rfl⟩ := h.slashes
  rw [String.toList_append]
  exact List.prefix_append ..

/-- What stands at the front of a text and does not end in a slash is within its base. -/
theorem longest (h : IsTrimmed url base) {s : String} (hs : s.toList <+: url.toList)
    (hends : ∀ r, s ≠ r ++ "/") : s.toList <+: base.toList := by
  obtain hshort | ⟨t, ht⟩ := List.prefix_or_prefix_of_prefix hs h.prefix_url
  · exact hshort
  -- what the front has behind the base are slashes, so that there is nothing
  obtain ⟨n, hn⟩ := h.slashes
  rw [hn, String.toList_append, String.toList_ofList, ← ht, List.prefix_append_right_inj,
    List.prefix_replicate_iff] at hs
  cases hlength : t.length with
  | zero =>
    rw [List.length_eq_zero_iff.1 hlength, List.append_nil] at ht
    exact ht ▸ List.prefix_rfl
  | succ k =>
    rw [hs.2, hlength, List.replicate_succ', ← List.append_assoc] at ht
    refine absurd (String.toList_injective ?_)
      (hends (String.ofList (base.toList ++ .replicate k '/')))
    rw [← ht, String.toList_append, String.toList_ofList]
    rfl

theorem unique (h : IsTrimmed url base) (h' : IsTrimmed url base') : base = base' := by
  have hle := h'.longest h.prefix_url h.ends
  have hge := h.longest h'.prefix_url h'.ends
  exact String.toList_injective (hle.eq_of_length_le hge.length_le)

theorem slashed (h : IsTrimmed url base) (n : Nat) : IsTrimmed (slashed url n) base := by
  obtain ⟨m, rfl⟩ := h.slashes
  refine ⟨⟨m + n, ?_⟩, h.ends⟩
  rw [MusicCatalog.slashed, String.append_assoc, ← String.ofList_append,
    List.replicate_append_replicate]

/-- A base is its own. -/
theorem self (h : IsTrimmed url base) : IsTrimmed base base :=
  ⟨⟨0, String.append_empty.symm⟩, h.ends⟩

end IsTrimmed

/-- Slashes at the end make no difference. -/
theorem trimSlashes_slashed (url : String) (n : Nat) :
    trimSlashes (slashed url n) = trimSlashes url :=
  (isTrimmed_trimSlashes _).unique ((isTrimmed_trimSlashes url).slashed n)

theorem trimSlashes_trimSlashes (url : String) : trimSlashes (trimSlashes url) = trimSlashes url :=
  (isTrimmed_trimSlashes _).unique (isTrimmed_trimSlashes url).self

end MusicCatalog
