import Mathlib.Data.Quot
import MusicCatalog.Piece
import MusicCatalog.Proofs.Json.Nesting

/-!
# Equality of values

Values are compared member by member and numbers as numbers, so two values that are equal may still
differ in the signs of their zeros. Nothing else is lost: without these signs, equal values are one
and the same. As no number is a NaN, equality is an equivalence.

* `Value.content`: a value in which no zero has a sign;
* **`Value.same_iff`**: two values are equal exactly if these are the same;
* `Piece.equality`, `Piece.Kind`: equality of pieces as an equivalence, and its classes.
-/

namespace MusicCatalog

/-! ## Numbers -/

namespace Decimal.Binary64

/-- The number; a zero without its sign. -/
def content (x : Binary64) : Binary64 := if x.magnitude.bits = 0 then ⟨false, .zero⟩ else x

theorem content_of_zero {x : Binary64} (h : x.magnitude.bits = 0) : x.content = ⟨false, .zero⟩ :=
  if_pos h

theorem content_of_ne_zero {x : Binary64} (h : x.magnitude.bits ≠ 0) : x.content = x := if_neg h

theorem bits_content (x : Binary64) : x.content.magnitude.bits = x.magnitude.bits := by
  by_cases h : x.magnitude.bits = 0
  · rw [content_of_zero h, h]
    rfl
  · rw [content_of_ne_zero h]

/-- Numbers are equal exactly if they are the same but for the sign of a zero. -/
theorem eqv_iff_content {x y : Binary64} : x.eqv y ↔ x.content = y.content := by
  rw [eqv_iff]
  constructor
  · rintro (⟨hx, hy⟩ | rfl)
    · rw [content_of_zero hx, content_of_zero hy]
    · rfl
  · intro h
    have hbits : x.magnitude.bits = y.magnitude.bits := by rw [← bits_content, h, bits_content]
    by_cases hx : x.magnitude.bits = 0
    · exact .inl ⟨hx, hbits ▸ hx⟩
    · rw [content_of_ne_zero hx, content_of_ne_zero (hbits ▸ hx)] at h
      exact .inr h

end Decimal.Binary64

namespace Json

/-! ## Values -/

mutual

/-- The value, with no sign at any zero. -/
def Value.content : Value → Value
  | .arr items => .arr (contentItems items)
  | .obj members => .obj (contentMembers members)
  | .float x => .float x.content
  | .null => .null
  | .bool b => .bool b
  | .int n => .int n
  | .str s => .str s

/-- The same for all values of a list. -/
def contentItems : List Value → List Value
  | [] => []
  | v :: vs => v.content :: contentItems vs

/-- The same for all members. -/
def contentMembers : Members → Members
  | [] => []
  | (k, v) :: ms => (k, v.content) :: contentMembers ms

end

theorem contentItems_eq_map (vs : List Value) : contentItems vs = vs.map Value.content := by
  induction vs with
  | nil => rfl
  | cons v vs ih => rw [contentItems, ih, List.map_cons]

theorem contentMembers_eq_map (ms : Members) :
    contentMembers ms = ms.map fun m => (m.1, m.2.content) := by
  induction ms with
  | nil => rfl
  | cons m ms ih => rw [contentMembers, ih, List.map_cons]

theorem sameItems_iff {vs : List Value} (h : ∀ v ∈ vs, ∀ w, v.same w ↔ v.content = w.content)
    (ws : List Value) : sameItems vs ws ↔ contentItems vs = contentItems ws := by
  induction vs generalizing ws with
  | nil => cases ws <;> simp [sameItems, contentItems]
  | cons v vs ih =>
    obtain ⟨hv, hvs⟩ := List.forall_mem_cons.1 h
    cases ws with
    | nil => simp [sameItems, contentItems]
    | cons w ws => simp [sameItems, contentItems, hv, ih hvs]

theorem sameMembers_iff {ms : Members} (h : ∀ m ∈ ms, ∀ w, m.2.same w ↔ m.2.content = w.content)
    (ns : Members) : sameMembers ms ns ↔ contentMembers ms = contentMembers ns := by
  induction ms generalizing ns with
  | nil => cases ns <;> simp [sameMembers, contentMembers]
  | cons m ms ih =>
    obtain ⟨hm, hms⟩ := List.forall_mem_cons.1 h
    cases ns with
    | nil => simp [sameMembers, contentMembers]
    | cons n ns => simp [sameMembers, contentMembers, hm, ih hms]

/-- **Equal values** have the same content. -/
theorem Value.same_iff (v w : Value) : v.same w ↔ v.content = w.content := by
  induction v using Value.induction generalizing w with
  | null => cases w <;> simp [same, content]
  | bool b => cases w <;> simp [same, content]
  | int n => cases w <;> simp [same, content]
  | float x => cases w <;> simp [same, content, Decimal.Binary64.eqv_iff_content]
  | str s => cases w <;> simp [same, content]
  | arr items ih => cases w <;> simp [same, content, sameItems_iff ih]
  | obj members ih => cases w <;> simp [same, content, sameMembers_iff ih]

end Json

/-! ## Pieces -/

namespace Piece

theorem same_iff (p q : Piece) : p.same q ↔ p.toValue.content = q.toValue.content :=
  Json.Value.same_iff p.toValue q.toValue

/-- Equality of pieces is an equivalence. -/
instance equality : Setoid Piece where
  r p q := p.same q
  iseqv :=
    { refl := fun p => (same_iff p p).2 rfl
      symm := fun {p q} h => (same_iff q p).2 ((same_iff p q).1 h).symm
      trans := fun {p q r} h h' => (same_iff p r).2 (((same_iff p q).1 h).trans ((same_iff q r).1 h')) }

theorem same_comm {p q : Piece} : p.same q ↔ q.same p := ⟨equality.symm, equality.symm⟩

instance (p q : Piece) : Decidable (p ≈ q) := inferInstanceAs (Decidable (p.same q = true))

/-- Classes of equal pieces. -/
abbrev Kind : Type := Quotient equality

/-- The class of a piece. -/
def kind (p : Piece) : Kind := Quotient.mk equality p

theorem kind_eq_iff {p q : Piece} : p.kind = q.kind ↔ p.same q := Quotient.eq

end Piece

end MusicCatalog
