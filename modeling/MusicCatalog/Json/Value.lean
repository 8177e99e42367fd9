import MusicCatalog.Decimal.Binary64

/-!
# JSON values

An object is a list of members in the order of the document, repeated keys included. Its canonical
form has every key once, with the value of its last occurrence, and the keys in increasing order.

* `Whole`: the integers that stay integers, signed or unsigned 64 bits;
* `Value`, `Value.same`: values, and their equality;
* **`Value.canonical`**, `Value.IsCanonical`: the canonical form of a value at every level, and the
  property of being in it;
* `canonical_isCanonical`, `lookup_canonicalMembers`: the form is reached, and keeps last values.
-/

namespace MusicCatalog.Json

open MusicCatalog.Decimal

/-- An integer of 64 bits, signed or unsigned. -/
structure Whole where
  toInt : Int
  lower : -0x8000000000000000 ≤ toInt
  upper : toInt < 0x10000000000000000
deriving DecidableEq

/-- A JSON value. An integer and a floating number are never the same value. -/
inductive Value where
  | null
  | bool (b : Bool)
  | int (n : Whole)
  | float (x : Binary64)
  | str (s : String)
  | arr (items : List Value)
  | obj (members : List (String × Value))

/-- Members of an object. -/
abbrev Members := List (String × Value)

/-! ## Equality -/

mutual

/-- Equality of values, member by member; numbers are compared as numbers. -/
def Value.same : Value → Value → Bool
  | .null, .null => true
  | .bool a, .bool b => a == b
  | .int m, .int n => m == n
  | .float x, .float y => x.eqv y
  | .str s, .str t => s == t
  | .arr vs, .arr ws => sameItems vs ws
  | .obj ms, .obj ns => sameMembers ms ns
  | _, _ => false

/-- Equality of two lists of values. -/
def sameItems : List Value → List Value → Bool
  | [], [] => true
  | v :: vs, w :: ws => v.same w && sameItems vs ws
  | _, _ => false

/-- Equality of two lists of members. -/
def sameMembers : Members → Members → Bool
  | [], [] => true
  | (k, v) :: ms, (l, w) :: ns => k == l && v.same w && sameMembers ms ns
  | _, _ => false

end

/-! ## Canonical form -/

/-- Puts a member in its place among members with increasing keys; a key that is there stays. -/
def insertNew (key : String) (value : Value) : Members → Members
  | [] => [(key, value)]
  | (k, v) :: ms =>
    if key < k then (key, value) :: (k, v) :: ms
    else if key = k then (k, v) :: ms
    else (k, v) :: insertNew key value ms

mutual

/-- The canonical form of a value, at every level. -/
def Value.canonical : Value → Value
  | .arr items => .arr (canonicalItems items)
  | .obj members => .obj (canonicalMembers members)
  | .null => .null
  | .bool b => .bool b
  | .int n => .int n
  | .float x => .float x
  | .str s => .str s

/-- The canonical forms of a list of values. -/
def canonicalItems : List Value → List Value
  | [] => []
  | v :: vs => v.canonical :: canonicalItems vs

/-- Members with increasing keys, each with the last value it had. -/
def canonicalMembers : Members → Members
  | [] => []
  | (k, v) :: ms => insertNew k v.canonical (canonicalMembers ms)

end

mutual

/-- At every level the keys of an object are strictly increasing. -/
def Value.IsCanonical : Value → Prop
  | .arr items => ItemsCanonical items
  | .obj members => MembersCanonical members
  | .null | .bool _ | .int _ | .float _ | .str _ => True

/-- All values of a list are canonical. -/
def ItemsCanonical : List Value → Prop
  | [] => True
  | v :: vs => v.IsCanonical ∧ ItemsCanonical vs

/-- Each key is less than all that follow it, and all values are canonical. -/
def MembersCanonical : Members → Prop
  | [] => True
  | (k, v) :: ms => (∀ l ∈ ms.map Prod.fst, k < l) ∧ v.IsCanonical ∧ MembersCanonical ms

end

theorem mem_keys_insertNew {key l : String} {value : Value} {ms : Members} :
    l ∈ (insertNew key value ms).map Prod.fst ↔ l = key ∨ l ∈ ms.map Prod.fst := by
  induction ms with
  | nil => simp [insertNew]
  | cons m ms ih =>
    obtain ⟨k, v⟩ := m
    unfold insertNew
    split
    · simp
    · split
      · next h => simp [h]
      · simp only [List.map_cons, List.mem_cons, ih]
        constructor <;> rintro (h | h | h) <;> simp [h]

theorem insertNew_canonical {key : String} {value : Value} {ms : Members}
    (hv : value.IsCanonical) (hm : MembersCanonical ms) :
    MembersCanonical (insertNew key value ms) := by
  induction ms with
  | nil => simp [insertNew, MembersCanonical, hv]
  | cons m ms ih =>
    obtain ⟨k, v⟩ := m
    obtain ⟨hk, hv', hms⟩ := hm
    unfold insertNew
    split
    · next hlt =>
      refine ⟨?_, hv, hk, hv', hms⟩
      intro l hl
      rcases List.mem_cons.1 hl with rfl | hl
      · exact hlt
      · exact String.lt_trans hlt (hk l hl)
    · split
      · exact ⟨hk, hv', hms⟩
      · next hlt hne =>
        refine ⟨?_, hv', ih hms⟩
        intro l hl
        rcases mem_keys_insertNew.1 hl with rfl | hl
        · refine Decidable.byContradiction fun hle => hne (String.le_antisymm ?_ ?_)
          · exact String.not_lt.1 hle
          · exact String.not_lt.1 hlt
        · exact hk l hl

mutual

theorem canonical_isCanonical : ∀ v : Value, v.canonical.IsCanonical
  | .arr items => by
    simpa [Value.canonical, Value.IsCanonical] using canonicalItems_canonical items
  | .obj members => by
    simpa [Value.canonical, Value.IsCanonical] using canonicalMembers_canonical members
  | .null | .bool _ | .int _ | .float _ | .str _ => by simp [Value.canonical, Value.IsCanonical]

theorem canonicalItems_canonical : ∀ vs : List Value, ItemsCanonical (canonicalItems vs)
  | [] => by simp [canonicalItems, ItemsCanonical]
  | v :: vs => by
    simpa [canonicalItems, ItemsCanonical] using
      ⟨canonical_isCanonical v, canonicalItems_canonical vs⟩

theorem canonicalMembers_canonical : ∀ ms : Members, MembersCanonical (canonicalMembers ms)
  | [] => by simp [canonicalMembers, MembersCanonical]
  | (k, v) :: ms => by
    simpa [canonicalMembers] using
      insertNew_canonical (canonical_isCanonical v) (canonicalMembers_canonical ms)

end

/-- Leaving out members keeps the canonical form. -/
theorem MembersCanonical.filter {ms : Members} (h : MembersCanonical ms)
    (keep : String × Value → Bool) : MembersCanonical (ms.filter keep) := by
  induction ms with
  | nil => simp [MembersCanonical]
  | cons m ms ih =>
    obtain ⟨k, v⟩ := m
    obtain ⟨hk, hv, hms⟩ := h
    rw [List.filter_cons]
    split
    · refine ⟨fun l hl => ?_, hv, ih hms⟩
      obtain ⟨m, hm, rfl⟩ := List.mem_map.1 hl
      exact hk _ (List.mem_map_of_mem (List.mem_filter.1 hm).1)
    · exact ih hms

theorem lookup_cons_ite (l k : String) (v : Value) (ms : Members) :
    ((k, v) :: ms).lookup l = if l = k then some v else ms.lookup l := by
  by_cases h : l = k
  · simp [h]
  · rw [if_neg h, List.lookup_cons, beq_false_of_ne h]

theorem lookup_insertNew {key l : String} {value : Value} {ms : Members}
    (hm : MembersCanonical ms) :
    (insertNew key value ms).lookup l =
      if l = key then some ((ms.lookup key).getD value) else ms.lookup l := by
  induction ms with
  | nil => simp [insertNew, lookup_cons_ite]
  | cons m ms ih =>
    obtain ⟨k, v⟩ := m
    obtain ⟨hk, -, hms⟩ := hm
    unfold insertNew
    split
    · next hlt =>
      have absent : ms.lookup key = none := by
        rw [List.lookup_eq_none_iff]
        intro p hp
        simpa using String.ne_of_lt (String.lt_trans hlt (hk p.1 (List.mem_map_of_mem hp)))
      simp [lookup_cons_ite, String.ne_of_lt hlt, absent]
    · split
      · next h => by_cases hl : l = key <;> simp [lookup_cons_ite, ← h, hl]
      · next hne =>
        rw [lookup_cons_ite, ih hms, lookup_cons_ite, lookup_cons_ite, if_neg hne]
        by_cases hl : l = key
        · simp [hl, hne]
        · simp [hl]

/-- The canonical form keeps the value of the last occurrence of every key. -/
theorem lookup_canonicalMembers (l : String) (ms : Members) :
    (canonicalMembers ms).lookup l = (ms.reverse.lookup l).map Value.canonical := by
  induction ms with
  | nil => simp [canonicalMembers]
  | cons m ms ih =>
    obtain ⟨k, v⟩ := m
    rw [canonicalMembers, lookup_insertNew (canonicalMembers_canonical ms), List.reverse_cons,
      List.lookup_append, lookup_cons_ite]
    by_cases h : l = k
    · subst h
      rw [ih]
      cases ms.reverse.lookup l <;> simp
    · rw [ih]
      cases ms.reverse.lookup l <;> simp [h]

end MusicCatalog.Json
