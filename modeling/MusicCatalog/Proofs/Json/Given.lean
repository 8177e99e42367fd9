import Mathlib.Tactic.SplitIfs
import MusicCatalog.Proofs.Json.Nesting

/-!
# What readers can give

Here a text is not known, only that a reader has accepted it.

* `Gives`: all that a reader gives has a property;
* **`Gives.readItems`**, **`Gives.readMembers`**: the two loops keep what their items keep;
* `depth_readScalar`, **`depth_readValue`**: a value has no more levels of brackets than there was
  room for;
* `Gives.document`: whole texts.
-/

namespace MusicCatalog.Json

variable {α β σ : Type}

/-- All that the reader gives has the property. -/
def Gives (r : Reader α) (P : α → Prop) : Prop := ∀ s p, r s = .ok p → P p.1

/-! ## Loops -/

theorem Gives.nextItem {item : Reader α} {P : α → Prop} (h : Gives item P) (first : Bool) :
    Gives (nextItem item first) fun next => ∀ a ∈ next, P a := by
  have hitem : ∀ s p, (item s >>= fun q => Except.ok (some q.1, q.2)) = .ok p → ∀ a ∈ p.1, P a := by
    intro s p hp a ha
    obtain ⟨q, hq, hp⟩ := bind_eq_ok.1 hp
    cases hp
    cases ha
    exact h s q hq
  intro s p hp
  unfold Json.nextItem at hp
  split at hp
  · cases hp
  · split_ifs at hp
    · cases hp
      rintro a ha
      cases ha
    · exact hitem _ p hp
    · split at hp
      · cases hp
      · split_ifs at hp
        exact hitem _ p hp

/-- **The items of a list** have the property that every item has. -/
theorem Gives.readItems {item : Reader α} {P : α → Prop} (h : Gives item P) (budget : Nat)
    (first : Bool) {before : List α} (hbefore : ∀ a ∈ before, P a) :
    Gives (readItems item budget first before) fun as => ∀ a ∈ as, P a := by
  induction budget generalizing first before with
  | zero =>
    intro s p hp
    cases hp
  | succ budget ih =>
    intro s p hp
    rw [Json.readItems] at hp
    obtain ⟨⟨next, r⟩, hnext, hp⟩ := bind_eq_ok.1 hp
    have hgives := h.nextItem first s _ hnext
    cases next with
    | none =>
      cases hp
      exact fun a ha => hbefore a (List.mem_reverse.1 ha)
    | some a =>
      exact ih false (List.forall_mem_cons.2 ⟨hgives a rfl, hbefore⟩) r p hp

/-- **The members of an object** keep what each of them keeps. -/
theorem Gives.readMembers {member : σ → String → Reader σ} {I : σ → Prop}
    (h : ∀ state, I state → ∀ key, Gives (member state key) I) (budget : Nat) (first : Bool)
    {state : σ} (hstate : I state) : Gives (readMembers member budget first state) I := by
  induction budget generalizing first state with
  | zero =>
    intro s p hp
    cases hp
  | succ budget ih =>
    intro s p hp
    rw [Json.readMembers] at hp
    obtain ⟨⟨key, r⟩, -, hp⟩ := bind_eq_ok.1 hp
    cases key with
    | none =>
      cases hp
      exact hstate
    | some key =>
      obtain ⟨⟨next, rest⟩, hmember, hp⟩ := bind_eq_ok.1 hp
      exact ih false (h state hstate key r _ hmember) rest p hp

theorem Gives.keyed {value : Reader α} {P : α → Prop} (h : Gives value P) : Gives (keyed value) P := by
  intro s p hp
  obtain ⟨r, -, hp⟩ := bind_eq_ok.1 hp
  exact h r p hp

theorem Gives.gather {value : Reader Value} {P : Value → Prop} (h : Gives value P)
    {before : Members} (hbefore : ∀ m ∈ before, P m.2) (key : String) :
    Gives (gather value before key) fun ms => ∀ m ∈ ms, P m.2 := by
  intro s p hp
  obtain ⟨q, hq, hp⟩ := bind_eq_ok.1 hp
  cases hp
  exact List.forall_mem_cons.2 ⟨h.keyed s q hq, hbefore⟩

theorem Gives.memberOnce {value : Reader α} {P : α → Prop} (h : Gives value P) (name : String)
    (seen : Option α) : Gives (memberOnce name seen value) P := by
  intro s p hp
  unfold Json.memberOnce at hp
  split_ifs at hp
  exact h.keyed s p hp

/-! ## Depth -/

section Depth

variable (negative : Bool) (n : Nat)

theorem depth_signed (magnitude : Option Decimal.Magnitude) :
    Gives (signed negative magnitude) fun v => v.depth = 0 := by
  -- for any magnitude: which one the digits make is of no account here
  intro s p hp
  cases magnitude with
  | none => cases hp
  | some m =>
    cases hp
    rfl

theorem depth_floating (exponent : Int) :
    Gives (floating negative n exponent) fun v => v.depth = 0 :=
  depth_signed negative _

theorem depth_exponentTail (exponent : Int) :
    Gives (exponentTail negative n exponent) fun v => v.depth = 0 := by
  intro s p hp
  unfold exponentTail at hp
  dsimp only at hp
  split at hp
  · cases hp
  · split at hp
    · split at hp
      · exact depth_floating _ _ _ _ p hp
      · split_ifs at hp
        all_goals
          cases hp
          rfl
    · cases hp

theorem depth_fractionTail (exponent : Int) :
    Gives (fractionTail negative n exponent) fun v => v.depth = 0 := by
  intro s p hp
  unfold fractionTail fractionEnd at hp
  split at hp
  · cases hp
  · split_ifs at hp
    dsimp only at hp
    split at hp
    · exact depth_floating _ _ _ _ p hp
    · split_ifs at hp
      · exact depth_exponentTail _ _ _ _ p hp
      · exact depth_floating _ _ _ _ p hp

theorem depth_wholeEnd (dropped : Nat) :
    Gives (wholeEnd negative n dropped) fun v => v.depth = 0 := by
  intro s p hp
  unfold wholeEnd at hp
  split at hp
  · exact depth_floating _ _ _ _ p hp
  · split at hp
    · cases hp
      rfl
    · exact depth_floating _ _ _ _ p hp

theorem depth_afterWhole (dropped : Nat) :
    Gives (afterWhole negative n dropped) fun v => v.depth = 0 := by
  intro s p hp
  unfold afterWhole at hp
  split at hp
  · exact depth_wholeEnd _ _ _ _ p hp
  · split_ifs at hp
    · exact depth_fractionTail _ _ _ _ p hp
    · exact depth_exponentTail _ _ _ _ p hp
    · exact depth_wholeEnd _ _ _ _ p hp

theorem depth_numeral : Gives (numeral negative) fun v => v.depth = 0 := by
  intro s p hp
  unfold numeral at hp
  split at hp
  · cases hp
  · split_ifs at hp
    · split at hp
      · exact depth_afterWhole _ _ _ _ p hp
      · split_ifs at hp
        exact depth_afterWhole _ _ _ _ p hp
    · exact depth_afterWhole _ _ _ _ p hp

theorem depth_readScalar : Gives readScalar fun v => v.depth = 0 := by
  intro s p hp
  cases s with
  | nil => cases hp
  | cons c r =>
    rw [readScalar] at hp
    split_ifs at hp
    · obtain ⟨q, -, hp⟩ := bind_eq_ok.1 hp
      cases hp
      rfl
    · exact depth_numeral _ _ p hp
    · exact depth_numeral _ _ p hp
    all_goals
      obtain ⟨rest, -, hp⟩ := bind_eq_ok.1 hp
      cases hp
      rfl

end Depth

/-- **A value has no more levels of brackets** than there was room for. -/
theorem depth_readValue (budget room : Nat) : Gives (readValue budget room) fun v => v.depth ≤ room := by
  induction room with
  | zero =>
    intro s p hp
    unfold readValue valueAround at hp
    split at hp
    · cases hp
    · split_ifs at hp
      exact Nat.le_of_eq (depth_readScalar _ p hp)
  | succ room ih =>
    intro s p hp
    unfold readValue valueAround at hp
    split at hp
    · cases hp
    · split_ifs at hp
      · obtain ⟨⟨items, rest⟩, hitems, hp⟩ := bind_eq_ok.1 hp
        have hdepth := ih.readItems budget true (List.forall_mem_nil _) _ _ hitems
        cases hp
        rw [Value.depth, Nat.add_comm, Nat.add_le_add_iff_right]
        exact itemsDepth_le_iff.2 hdepth
      · obtain ⟨⟨members, rest⟩, hmembers, hp⟩ := bind_eq_ok.1 hp
        have hdepth := Gives.readMembers (fun _ h key => ih.gather h key) budget true
          (List.forall_mem_nil _) _ _ hmembers
        cases hp
        rw [Value.depth, Nat.add_comm, Nat.add_le_add_iff_right]
        exact membersDepth_le_iff.2 fun m hm => hdepth m (List.mem_reverse.1 hm)
      · exact Nat.le_trans (Nat.le_of_eq (depth_readScalar _ p hp)) (Nat.zero_le _)

/-! ## Values of one kind -/

theorem Gives.listOf {item : Nat → Reader α} {P : α → Prop} {room : Nat}
    (h : Gives (item room) P) (budget : Nat) :
    Gives (listOf item budget (room + 1)) fun as => ∀ a ∈ as, P a := by
  intro s p hp
  unfold Json.listOf at hp
  split at hp
  · cases hp
  · split_ifs at hp
    exact h.readItems budget true (List.forall_mem_nil _) _ p hp

theorem Gives.objectOf {expected : String} {member : Nat → σ → String → Reader σ} {I : σ → Prop}
    {room : Nat} (h : ∀ state, I state → ∀ key, Gives (member room state key) I) {start : σ}
    (hstart : I start) (budget : Nat) : Gives (objectOf expected member start budget (room + 1)) I := by
  intro s p hp
  unfold Json.objectOf at hp
  split at hp
  · cases hp
  · split_ifs at hp
    exact Gives.readMembers h budget true hstart _ p hp

/-- Without room for its braces no object is read. -/
theorem Gives.objectOf_zero {expected : String} {member : Nat → σ → String → Reader σ} {start : σ}
    {budget : Nat} (P : σ → Prop) : Gives (Json.objectOf expected member start budget 0) P := by
  intro s p hp
  unfold Json.objectOf at hp
  split at hp
  · cases hp
  · split_ifs at hp

theorem Gives.document {value : Nat → Nat → Reader α} {P : α → Prop} {text : String} {a : α}
    (h : Gives (value text.toList.length maxDepth) P) (ha : document value text = .ok a) : P a := by
  unfold Json.document at ha
  cases halone : alone (value text.toList.length maxDepth) text.toList with
  | error fault =>
    simp only [halone] at ha
    cases ha
  | ok b =>
    simp only [halone] at ha
    cases ha
    obtain ⟨q, hq, hrest⟩ := bind_eq_ok.1 halone
    have hP := h _ q hq
    dsimp only at hrest
    split at hrest <;> cases hrest
    exact hP

end MusicCatalog.Json
