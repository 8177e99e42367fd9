import Mathlib.Tactic.ByContra
import MusicCatalog.Json.Value

/-!
# Members by their keys

* `lookup_filter_others`: the members without some keys;
* `lookup_map_values`, `MembersCanonical.map_values`: members with other values;
* `itemsCanonical_iff`, `membersCanonical_iff`: canonical forms, item by item and member by member;
* `lookup_of_lt`, `pairwise_keys`: keys in increasing order;
* **`MembersCanonical.ext`**: members in canonical form are known by their values.
-/

namespace MusicCatalog.Json

/-- Under the other keys the values stay. -/
theorem lookup_filter_others (keys : List String) (ms : Members) (key : String) :
    (ms.filter fun m => !keys.contains m.1).lookup key =
      if key ∈ keys then none else ms.lookup key := by
  induction ms with
  | nil => simp
  | cons m ms ih =>
    obtain ⟨k, v⟩ := m
    rw [List.filter_cons, lookup_cons_ite]
    by_cases hk : k ∈ keys
    · rw [if_neg (by simpa using hk), ih]
      by_cases h : key = k
      · rw [h, if_pos hk, if_pos hk]
      · rw [if_neg h]
    · rw [if_pos (by simpa using hk), lookup_cons_ite, ih]
      by_cases h : key = k
      · rw [h, if_pos rfl, if_pos rfl, if_neg hk]
      · rw [if_neg h, if_neg h]

section Values

variable (f : String → Value → Value)

/-- Values that are changed key by key. -/
theorem lookup_map_values (ms : Members) (key : String) :
    (ms.map fun m => (m.1, f m.1 m.2)).lookup key = (ms.lookup key).map (f key) := by
  induction ms with
  | nil => rfl
  | cons m ms ih =>
    obtain ⟨k, v⟩ := m
    rw [List.map_cons, lookup_cons_ite, lookup_cons_ite, ih]
    by_cases h : key = k
    · rw [if_pos h, if_pos h, h]
      rfl
    · rw [if_neg h, if_neg h]

variable {f}

theorem MembersCanonical.map_values {ms : Members} (h : MembersCanonical ms)
    (hf : ∀ key v, v.IsCanonical → (f key v).IsCanonical) :
    MembersCanonical (ms.map fun m => (m.1, f m.1 m.2)) := by
  induction ms with
  | nil => exact h
  | cons m ms ih =>
    obtain ⟨k, v⟩ := m
    obtain ⟨hk, hv, hms⟩ := h
    refine ⟨?_, hf k v hv, ih hms⟩
    rwa [List.map_map]

end Values

theorem mem_keys_canonicalMembers {key : String} {ms : Members} :
    key ∈ (canonicalMembers ms).map Prod.fst ↔ key ∈ ms.map Prod.fst := by
  induction ms with
  | nil => rfl
  | cons m ms ih =>
    obtain ⟨k, v⟩ := m
    rw [canonicalMembers, mem_keys_insertNew, ih, List.map_cons, List.mem_cons]

theorem canonicalItems_eq_map (vs : List Value) : canonicalItems vs = vs.map Value.canonical := by
  induction vs with
  | nil => rfl
  | cons v vs ih => rw [canonicalItems, ih, List.map_cons]

theorem itemsCanonical_iff {vs : List Value} : ItemsCanonical vs ↔ ∀ v ∈ vs, v.IsCanonical := by
  induction vs with
  | nil => simp [ItemsCanonical]
  | cons v vs ih => rw [ItemsCanonical, ih, List.forall_mem_cons]

theorem membersCanonical_iff {ms : Members} : MembersCanonical ms ↔
    (ms.map Prod.fst).Pairwise (· < ·) ∧ ∀ m ∈ ms, m.2.IsCanonical := by
  induction ms with
  | nil => simp [MembersCanonical]
  | cons m ms ih =>
    rw [MembersCanonical, ih, List.map_cons, List.pairwise_cons, List.forall_mem_cons]
    constructor
    · rintro ⟨hk, hv, hks, hvs⟩
      exact ⟨⟨hk, hks⟩, hv, hvs⟩
    · rintro ⟨⟨hk, hks⟩, hv, hvs⟩
      exact ⟨hk, hv, hks, hvs⟩

theorem pairwise_keys {ms : Members} (h : MembersCanonical ms) :
    (ms.map Prod.fst).Pairwise (· < ·) := (membersCanonical_iff.1 h).1

theorem lookup_of_lt {key : String} {ms : Members} (h : ∀ k ∈ ms.map Prod.fst, key < k) :
    ms.lookup key = none := by
  rw [List.lookup_eq_none_iff]
  intro m hm
  simpa using String.ne_of_lt (h m.1 (List.mem_map_of_mem hm))

/-- The first key is the least. -/
theorem le_of_lookup {key k : String} {v : Value} {ms : Members}
    (hk : ∀ l ∈ ms.map Prod.fst, k < l) (h : ((k, v) :: ms).lookup key ≠ none) : k ≤ key := by
  by_contra hlt
  have hlt' := String.not_le.1 hlt
  exact h (lookup_of_lt (List.forall_mem_cons.2 ⟨hlt', fun l hl => String.lt_trans hlt' (hk l hl)⟩))

theorem MembersCanonical.ext {ms ns : Members} (hm : MembersCanonical ms) (hn : MembersCanonical ns)
    (h : ∀ key, ms.lookup key = ns.lookup key) : ms = ns := by
  induction ms generalizing ns with
  | nil =>
    cases ns with
    | nil => rfl
    | cons n ns =>
      obtain ⟨l, u⟩ := n
      simpa using h l
  | cons m ms ih =>
    cases ns with
    | nil =>
      obtain ⟨k, v⟩ := m
      simpa using h k
    | cons n ns =>
      obtain ⟨k, v⟩ := m
      obtain ⟨l, u⟩ := n
      obtain ⟨hk, -, hms⟩ := hm
      obtain ⟨hl, -, hns⟩ := hn
      have hkl : k = l := by
        have hle : ((k, v) :: ms).lookup l ≠ none := by simp [h l]
        have hge : ((l, u) :: ns).lookup k ≠ none := by simp [← h k]
        exact String.le_antisymm (le_of_lookup hk hle) (le_of_lookup hl hge)
      subst hkl
      simp only [lookup_cons_ite] at h
      have huv : v = u := by simpa using h k
      have hrest : ∀ key, ms.lookup key = ns.lookup key := by
        intro key
        by_cases heq : key = k
        · rw [heq, lookup_of_lt hk, lookup_of_lt hl]
        · simpa [heq] using h key
      rw [huv, ih hms hns hrest]

end MusicCatalog.Json
