import Mathlib.Tactic.SplitIfs
import MusicCatalog.Json.Document
import MusicCatalog.Proofs.Except

/-!
# Nesting of values

* **`Value.induction`**: induction over values, their items and members;
* `Value.depth`: the levels of brackets of a value;
* `Value.FloatFree`: no number of the value is a floating one;
* `Value.nest`: a value of any depth;
* `Value.within`, **`mapM_within`**, **`foldlM_within`**, `foldlM_gathered`: what is left of values if
  there is only so much room for brackets;
* `canonicalMembers_eq_self`, `membersDepth_canonicalMembers_le`: a canonical form is its own, and
  no deeper than what it is made from.
-/

set_option linter.unusedSectionVars false

namespace MusicCatalog.Json

/-! ## Induction -/

section Induction

variable {P : Value → Prop} (null : P .null) (bool : ∀ b, P (.bool b)) (int : ∀ n, P (.int n))
  (float : ∀ x, P (.float x)) (str : ∀ s, P (.str s))
  (arr : ∀ items, (∀ v ∈ items, P v) → P (.arr items))
  (obj : ∀ members, (∀ m ∈ members, P m.2) → P (.obj members))

include null bool int float str arr obj

mutual

/-- A property of all values, if lists and objects have it as soon as all their members do. -/
theorem Value.induction : ∀ v : Value, P v
  | .null => null
  | .bool b => bool b
  | .int n => int n
  | .float x => float x
  | .str s => str s
  | .arr items => arr items (items_induction items)
  | .obj members => obj members (members_induction members)

theorem items_induction : ∀ vs : List Value, ∀ v ∈ vs, P v
  | _ :: _, _, .head _ => Value.induction _
  | _ :: vs, v, .tail _ h => items_induction vs v h

theorem members_induction : ∀ ms : Members, ∀ m ∈ ms, P m.2
  | (_, v) :: _, _, .head _ => Value.induction v
  | _ :: ms, m, .tail _ h => members_induction ms m h

end

end Induction

/-! ## Depth -/

mutual

/-- The levels of brackets of a value. -/
def Value.depth : Value → Nat
  | .arr items => 1 + itemsDepth items
  | .obj members => 1 + membersDepth members
  | .null | .bool _ | .int _ | .float _ | .str _ => 0

/-- The largest depth in a list of values. -/
def itemsDepth : List Value → Nat
  | [] => 0
  | v :: vs => max v.depth (itemsDepth vs)

/-- The largest depth of a member. -/
def membersDepth : Members → Nat
  | [] => 0
  | (_, v) :: ms => max v.depth (membersDepth ms)

end

theorem itemsDepth_le_iff {vs : List Value} {n : Nat} :
    itemsDepth vs ≤ n ↔ ∀ v ∈ vs, v.depth ≤ n := by
  induction vs with
  | nil => simp [itemsDepth]
  | cons v vs ih => rw [itemsDepth, Nat.max_le, ih, List.forall_mem_cons]

theorem membersDepth_le_iff {ms : Members} {n : Nat} :
    membersDepth ms ≤ n ↔ ∀ m ∈ ms, m.2.depth ≤ n := by
  induction ms with
  | nil => simp [membersDepth]
  | cons m ms ih => rw [membersDepth, Nat.max_le, ih, List.forall_mem_cons]

/-! ## Floating numbers -/

mutual

/-- No number of the value is a floating one. -/
def Value.FloatFree : Value → Prop
  | .arr items => ItemsFloatFree items
  | .obj members => MembersFloatFree members
  | .float _ => False
  | .null | .bool _ | .int _ | .str _ => True

/-- No value of a list has a floating number. -/
def ItemsFloatFree : List Value → Prop
  | [] => True
  | v :: vs => v.FloatFree ∧ ItemsFloatFree vs

/-- No member has a floating number. -/
def MembersFloatFree : Members → Prop
  | [] => True
  | (_, v) :: ms => v.FloatFree ∧ MembersFloatFree ms

end

theorem itemsFloatFree_iff {vs : List Value} : ItemsFloatFree vs ↔ ∀ v ∈ vs, v.FloatFree := by
  induction vs with
  | nil => simp [ItemsFloatFree]
  | cons v vs ih => rw [ItemsFloatFree, ih, List.forall_mem_cons]

theorem membersFloatFree_iff {ms : Members} : MembersFloatFree ms ↔ ∀ m ∈ ms, m.2.FloatFree := by
  induction ms with
  | nil => simp [MembersFloatFree]
  | cons m ms ih => rw [MembersFloatFree, ih, List.forall_mem_cons]

mutual

/-- Whether a value has floating numbers can be decided. -/
def Value.decidableFloatFree : ∀ v : Value, Decidable v.FloatFree
  | .arr items => decidableItemsFloatFree items
  | .obj members => decidableMembersFloatFree members
  | .float _ => .isFalse False.elim
  | .null | .bool _ | .int _ | .str _ => .isTrue trivial

/-- The same for all values of a list. -/
def decidableItemsFloatFree : ∀ vs : List Value, Decidable (ItemsFloatFree vs)
  | [] => .isTrue trivial
  | v :: vs => @instDecidableAnd _ _ v.decidableFloatFree (decidableItemsFloatFree vs)

/-- The same for all members. -/
def decidableMembersFloatFree : ∀ ms : Members, Decidable (MembersFloatFree ms)
  | [] => .isTrue trivial
  | (_, v) :: ms => @instDecidableAnd _ _ v.decidableFloatFree (decidableMembersFloatFree ms)

end

instance : DecidablePred Value.FloatFree := Value.decidableFloatFree

instance : DecidablePred MembersFloatFree := decidableMembersFloatFree

/-! ## Lists in lists -/

/-- A value with so many levels of brackets, each around the next. -/
def Value.nest : Nat → Value
  | 0 => .null
  | n + 1 => .arr [nest n]

theorem depth_nest (n : Nat) : (Value.nest n).depth = n := by
  induction n with
  | zero => rfl
  | succ n ih => rw [Value.nest, Value.depth, itemsDepth, itemsDepth, ih, Nat.max_zero, Nat.add_comm]

theorem floatFree_nest (n : Nat) : (Value.nest n).FloatFree := by
  induction n with
  | zero => trivial
  | succ n ih => exact ⟨ih, trivial⟩

theorem isCanonical_nest (n : Nat) : (Value.nest n).IsCanonical := by
  induction n with
  | zero => trivial
  | succ n ih => exact ⟨ih, trivial⟩

/-! ## Room for brackets -/

/-- The value, if there is room for its brackets. -/
def Value.within (room : Nat) (v : Value) : Except Reason Value :=
  if v.depth ≤ room then .ok v else .error .tooDeep

theorem mapM_within (room : Nat) (vs : List Value) :
    vs.mapM (Value.within room) = if ∀ v ∈ vs, v.depth ≤ room then .ok vs else .error .tooDeep :=
  mapM_ite (P := fun v : Value => v.depth ≤ room) Reason.tooDeep vs

/-- Members that are added one by one have room if the deepest of them has. -/
theorem foldlM_within {σ : Type} {room : Nat} {f : σ → String × Value → Except Reason σ}
    {ms : Members} (add : σ → String × Value → σ)
    (hf : ∀ m ∈ ms, ∀ state, f state m = (m.2.within room).map fun v => add state (m.1, v))
    (state : σ) :
    ms.foldlM f state =
      if membersDepth ms ≤ room then .ok (ms.foldl add state) else .error .tooDeep := by
  induction ms generalizing state with
  | nil => rfl
  | cons m ms ih =>
    obtain ⟨k, v⟩ := m
    rw [List.foldlM_cons, hf _ List.mem_cons_self, membersDepth, Value.within]
    by_cases hv : v.depth ≤ room
    · rw [if_pos hv]
      change ms.foldlM f (add state (k, v)) = _
      rw [ih fun m hm => hf m (List.mem_cons_of_mem _ hm)]
      by_cases hms : membersDepth ms ≤ room
      · rw [if_pos hms, if_pos (Nat.max_le.2 ⟨hv, hms⟩)]
        rfl
      · rw [if_neg hms, if_neg fun h => hms (Nat.max_le.1 h).2]
    · rw [if_neg hv, if_neg fun h => hv (Nat.max_le.1 h).1]
      rfl

theorem foldlM_gathered (room : Nat) (ms : Members) :
    ms.foldlM (fun before m => (m.2.within room).map fun v => (m.1, v) :: before) [] =
      if membersDepth ms ≤ room then .ok ms.reverse else .error .tooDeep := by
  rw [foldlM_within (fun before m => m :: before) fun _ _ _ => rfl,
    List.foldl_flip_cons_eq_append', List.append_nil]

/-! ## Canonical forms -/

theorem insertNew_of_lt {key : String} {value : Value} {ms : Members}
    (h : ∀ l ∈ ms.map Prod.fst, key < l) : insertNew key value ms = (key, value) :: ms := by
  cases ms with
  | nil => rfl
  | cons m ms => rw [insertNew, if_pos (h m.1 List.mem_cons_self)]

mutual

theorem canonical_eq_self : ∀ {v : Value}, v.IsCanonical → v.canonical = v
  | .arr items, h => by rw [Value.canonical, canonicalItems_eq_self h]
  | .obj members, h => by rw [Value.canonical, canonicalMembers_eq_self h]
  | .null, _ | .bool _, _ | .int _, _ | .float _, _ | .str _, _ => by rw [Value.canonical]

theorem canonicalItems_eq_self : ∀ {vs : List Value}, ItemsCanonical vs → canonicalItems vs = vs
  | [], _ => by rw [canonicalItems]
  | v :: vs, h => by rw [canonicalItems, canonical_eq_self h.1, canonicalItems_eq_self h.2]

/-- Members in canonical form are their own canonical form. -/
theorem canonicalMembers_eq_self : ∀ {ms : Members}, MembersCanonical ms → canonicalMembers ms = ms
  | [], _ => by rw [canonicalMembers]
  | (k, v) :: ms, h => by
    obtain ⟨hk, hv, hms⟩ := h
    rw [canonicalMembers, canonical_eq_self hv, canonicalMembers_eq_self hms, insertNew_of_lt hk]

end

theorem membersDepth_insertNew_le (key : String) (value : Value) (ms : Members) :
    membersDepth (insertNew key value ms) ≤ max value.depth (membersDepth ms) := by
  induction ms with
  | nil => exact Nat.le_refl _
  | cons m ms ih =>
    obtain ⟨k, v⟩ := m
    rw [insertNew]
    split_ifs <;> simp only [membersDepth] <;> omega

mutual

theorem depth_canonical_le : ∀ v : Value, v.canonical.depth ≤ v.depth
  | .arr items => by
    have h := itemsDepth_canonicalItems_le items
    rw [Value.canonical, Value.depth, Value.depth]
    omega
  | .obj members => by
    have h := membersDepth_canonicalMembers_le members
    rw [Value.canonical, Value.depth, Value.depth]
    omega
  | .null | .bool _ | .int _ | .float _ | .str _ => Nat.zero_le _

theorem itemsDepth_canonicalItems_le : ∀ vs : List Value,
    itemsDepth (canonicalItems vs) ≤ itemsDepth vs
  | [] => Nat.le_refl 0
  | v :: vs => by
    have hv := depth_canonical_le v
    have hvs := itemsDepth_canonicalItems_le vs
    simp only [canonicalItems, itemsDepth]
    omega

/-- A canonical form is no deeper than what it is made from. -/
theorem membersDepth_canonicalMembers_le : ∀ ms : Members,
    membersDepth (canonicalMembers ms) ≤ membersDepth ms
  | [] => Nat.le_refl 0
  | (k, v) :: ms => by
    have hv := depth_canonical_le v
    have hms := membersDepth_canonicalMembers_le ms
    have hinsert := membersDepth_insertNew_le k v.canonical (canonicalMembers ms)
    simp only [canonicalMembers, membersDepth]
    omega

end

end MusicCatalog.Json
