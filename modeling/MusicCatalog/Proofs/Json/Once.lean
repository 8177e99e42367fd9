import MusicCatalog.Proofs.Json.Taken

/-!
# Keys that stand once

A reader of records sends the members of some keys to places of their own, and refuses a second
member of such a key. What it has read in the end depends on the members, but not on their order.

* `HasOnce`: a key stands before one member only;
* **`Chain.hasOnce`**: a place that is filled in the end was filled by the only member of its key;
* `filled`: such a place once some members have been read;
* **`foldlM_once`**: members that are added one by one, each key once, are all there in the end.
-/

namespace MusicCatalog.Json

variable {α β ε σ ν : Type}

/-- One member has the key, and no other, and its value is as described. -/
def HasOnce (key : String) (P : ν → Prop) (ms : List (String × ν)) : Prop :=
  ∃ v, ms.filter (fun m => m.1 == key) = [(key, v)] ∧ P v

section HasOnce

variable {key : String} {P : ν → Prop} {ms : List (String × ν)}

theorem HasOnce.exists_mem (h : HasOnce key P ms) : ∃ v, (key, v) ∈ ms ∧ P v := by
  obtain ⟨v, hfilter, hv⟩ := h
  have hmem : (key, v) ∈ ms.filter fun m => m.1 == key := by
    rw [hfilter]
    exact List.mem_singleton_self _
  exact ⟨v, (List.mem_filter.1 hmem).1, hv⟩

theorem HasOnce.of_mem (h : HasOnce key P ms) {v : ν} (hv : (key, v) ∈ ms) : P v := by
  obtain ⟨u, hfilter, hu⟩ := h
  have hmem : (key, v) ∈ ms.filter fun m => m.1 == key := List.mem_filter.2 ⟨hv, beq_self_eq_true key⟩
  rw [hfilter, List.mem_singleton] at hmem
  exact (Prod.mk.inj hmem).2 ▸ hu

theorem count_keys (key : String) (ms : List (String × ν)) :
    (ms.map Prod.fst).count key = (ms.filter fun m => m.1 == key).length := by
  rw [List.count, List.countP_map, List.countP_eq_length_filter]
  rfl

theorem hasOnce_iff : HasOnce key P ms ↔
    (ms.map Prod.fst).count key = 1 ∧ ∃ v, (key, v) ∈ ms ∧ P v := by
  constructor
  · intro h
    refine ⟨?_, h.exists_mem⟩
    obtain ⟨v, hfilter, -⟩ := h
    rw [count_keys, hfilter]
    rfl
  · rintro ⟨hcount, v, hmem, hv⟩
    rw [count_keys] at hcount
    obtain ⟨m, hfilter⟩ := List.length_eq_one_iff.1 hcount
    have hm : (key, v) ∈ ms.filter fun m => m.1 == key :=
      List.mem_filter.2 ⟨hmem, beq_self_eq_true key⟩
    rw [hfilter, List.mem_singleton] at hm
    exact ⟨v, by rw [hfilter, ← hm], hv⟩

end HasOnce

/-! ## Members that were read -/

section Slot

variable {R : σ → String × ν → σ → Prop} {key : String} (slot : σ → Option β) (Q : ν → β → Prop)
  (hR : ∀ a m b, R a m b →
    (m.1 = key ∧ slot a = none ∧ ∃ v, slot b = some v ∧ Q m.2 v) ∨ (m.1 ≠ key ∧ slot b = slot a))
  {a b : σ} {ms : List (String × ν)} {v : β}

include hR

/-- A place that is filled stays as it is, and its key does not occur again. -/
theorem Chain.keeps (h : Chain R a ms b) (ha : slot a = some v) :
    slot b = some v ∧ ms.filter (fun m => m.1 == key) = [] := by
  induction h with
  | nil => exact ⟨ha, rfl⟩
  | cons hm _ ih =>
    obtain ⟨-, hnone, -⟩ | ⟨hkey, hsame⟩ := hR _ _ _ hm
    · rw [ha] at hnone
      cases hnone
    · obtain ⟨hb, hfilter⟩ := ih (hsame.trans ha)
      exact ⟨hb, by rwa [List.filter_cons_of_neg (by simpa using hkey)]⟩

/-- **A place that is filled in the end** was filled by the only member of its key. -/
theorem Chain.hasOnce (h : Chain R a ms b) (ha : slot a = none) (hb : slot b = some v) :
    HasOnce key (Q · v) ms := by
  induction h with
  | nil =>
    rw [ha] at hb
    cases hb
  | cons hm hms ih =>
    obtain ⟨hkey, -, u, hu, hQ⟩ | ⟨hkey, hsame⟩ := hR _ _ _ hm
    · obtain ⟨hend, hfilter⟩ := hms.keeps slot Q hR hu
      rw [hb] at hend
      cases hend
      refine ⟨_, ?_, hQ⟩
      rw [List.filter_cons_of_pos (by simpa using hkey), hfilter, ← hkey]
    · obtain ⟨x, hfilter, hx⟩ := ih (hsame.trans ha) hb
      exact ⟨x, by rwa [List.filter_cons_of_neg (by simpa using hkey)], hx⟩

end Slot

/-! ## Members that can be read -/

/-- The place of a key once some members have been read. -/
def filled (key : String) (a : α) (before : List (String × ν)) : Option α :=
  if key ∈ before.map Prod.fst then some a else none

section Filled

variable {key : String} {a : α} {before : List (String × ν)}

theorem filled_of_mem (h : key ∈ before.map Prod.fst) : filled key a before = some a := if_pos h

theorem filled_of_not_mem (h : key ∉ before.map Prod.fst) : filled key a before = none := if_neg h

theorem filled_append (key : String) (a : α) (before : List (String × ν)) (m : String × ν) :
    filled key a (before ++ [m]) = if m.1 = key then some a else filled key a before := by
  by_cases h : m.1 = key
  · rw [if_pos h]
    refine filled_of_mem ?_
    rw [List.map_append, List.mem_append]
    exact .inr (List.mem_singleton.2 h.symm)
  · rw [if_neg h, filled, filled]
    have hmem : key ∈ (before ++ [m]).map Prod.fst ↔ key ∈ before.map Prod.fst := by
      rw [List.map_append, List.mem_append]
      exact or_iff_left fun hlast => h (List.mem_singleton.1 hlast).symm
    by_cases hbefore : key ∈ before.map Prod.fst
    · rw [if_pos hbefore, if_pos (hmem.2 hbefore)]
    · rw [if_neg hbefore, if_neg fun hlast => hbefore (hmem.1 hlast)]

end Filled

/-- **Members that are added one by one**, those of some keys once at most: what is there in the end
is known from the members, if each of them is accepted. -/
theorem foldlM_once {keys : List String} {P : String × ν → Prop} [DecidablePred P]
    {add : σ → String × ν → Except ε σ} (state : List (String × ν) → σ) (e : ε)
    {ms : List (String × ν)} (honce : ∀ key ∈ keys, (ms.map Prod.fst).count key ≤ 1)
    (hadd : ∀ before, ∀ m ∈ ms, (m.1 ∈ keys → m.1 ∉ before.map Prod.fst) →
      add (state before) m = if P m then .ok (state (before ++ [m])) else .error e) :
    ms.foldlM add (state []) = if ∀ m ∈ ms, P m then .ok (state ms) else .error e := by
  suffices key : ∀ before, (∀ key ∈ keys, ((before ++ ms).map Prod.fst).count key ≤ 1) →
      ms.foldlM add (state before) =
        if ∀ m ∈ ms, P m then .ok (state (before ++ ms)) else .error e from key [] honce
  clear honce
  induction ms with
  | nil =>
    intro before _
    rw [if_pos (List.forall_mem_nil P), List.append_nil]
    rfl
  | cons m ms ih =>
    intro before honce
    have hnew : m.1 ∈ keys → m.1 ∉ before.map Prod.fst := by
      intro hm hbefore
      have hcount := honce m.1 hm
      rw [List.map_append, List.count_append, List.map_cons, List.count_cons_self] at hcount
      have hpos := List.count_pos_iff.2 hbefore
      omega
    rw [List.foldlM_cons, hadd before m List.mem_cons_self hnew]
    by_cases hm : P m
    · have hrest := ih (fun b n hn => hadd b n (List.mem_cons_of_mem m hn)) (before ++ [m])
        (by rwa [List.append_assoc, List.singleton_append])
      rw [if_pos hm]
      change ms.foldlM add (state (before ++ [m])) = _
      rw [hrest, List.append_assoc, List.singleton_append]
      by_cases hms : ∀ n ∈ ms, P n
      · rw [if_pos hms, if_pos (List.forall_mem_cons.2 ⟨hm, hms⟩)]
      · rw [if_neg hms, if_neg fun h => hms (List.forall_mem_cons.1 h).2]
    · rw [if_neg hm, if_neg fun h => hm (List.forall_mem_cons.1 h).1]
      rfl

end MusicCatalog.Json
