/-!
# Computations that may fail

* **`bind_eq_ok`**, `bind_eq_error`: two computations, one after the other, both succeed, or one fails;
* `toOption_eq_some`: a result that is all one wants to know;
* `map_bind_except`: what is done with a result that has been changed;
* `bind_run_ok`, `bind_run_error`, `ofExcept_bind_run`: computations that also have a state;
* `mapM_ite`, `mapM_eq_ok_map`: items that are each accepted or refused for one reason, and items that
  are all accepted.
-/

namespace MusicCatalog

variable {ε α β γ : Type}

theorem bind_eq_ok {x : Except ε α} {f : α → Except ε β} {b : β} :
    x >>= f = .ok b ↔ ∃ a, x = .ok a ∧ f a = .ok b := by
  constructor
  · intro h
    cases x with
    | error e => cases h
    | ok a => exact ⟨a, rfl, h⟩
  · rintro ⟨a, rfl, h⟩
    exact h

theorem bind_eq_error {x : Except ε α} {f : α → Except ε β} {e : ε} :
    x >>= f = .error e ↔ x = .error e ∨ ∃ a, x = .ok a ∧ f a = .error e := by
  constructor
  · intro h
    cases x with
    | error e' =>
      cases h
      exact .inl rfl
    | ok a => exact .inr ⟨a, rfl, h⟩
  · rintro (rfl | ⟨a, rfl, h⟩)
    · rfl
    · exact h

theorem toOption_eq_some {x : Except ε α} {a : α} : x.toOption = some a ↔ x = .ok a := by
  cases x <;> simp [Except.toOption]

theorem map_bind_except (x : Except ε α) (f : α → β) (g : β → Except ε γ) :
    (x.map f >>= g) = x >>= fun a => g (f a) := by
  cases x <;> rfl

section State

variable {σ : Type} {e : ExceptT ε (StateM σ) α} {s s' : σ}

theorem bind_run_ok {a : α} (h : e.run s = (.ok a, s')) (f : α → ExceptT ε (StateM σ) β) :
    (e >>= f).run s = (f a).run s' := by
  change (match e.run s with | (x, s') => (ExceptT.bindCont f x) s') = _
  rw [h]
  rfl

theorem bind_run_error {failure : ε} (h : e.run s = (.error failure, s'))
    (f : α → ExceptT ε (StateM σ) β) : (e >>= f).run s = (.error failure, s') := by
  change (match e.run s with | (x, s') => (ExceptT.bindCont f x) s') = _
  rw [h]
  rfl

theorem get_run (s : σ) : (get : ExceptT ε (StateM σ) σ).run s = (.ok s, s) := rfl

theorem ofExcept_run (x : Except ε α) (s : σ) :
    (MonadExcept.ofExcept x : ExceptT ε (StateM σ) α).run s = (x, s) := by
  cases x <;> rfl

/-- What may fail but has nothing to do with the state leaves it as it is. -/
theorem ofExcept_bind_run (x : Except ε α) (f : α → Except ε β) (s : σ) :
    (MonadExcept.ofExcept x >>= fun a => MonadExcept.ofExcept (f a) :
      ExceptT ε (StateM σ) β).run s = (x >>= f, s) := by
  cases x with
  | error failure => exact bind_run_error (ofExcept_run _ s) _
  | ok a => exact (bind_run_ok (ofExcept_run _ s) _).trans (ofExcept_run _ s)

end State

/-- Items that are each accepted or refused for one reason. -/
theorem mapM_ite {P : α → Prop} [DecidablePred P] (e : ε) (xs : List α) :
    xs.mapM (fun x => if P x then Except.ok x else .error e) =
      if ∀ x ∈ xs, P x then .ok xs else .error e := by
  induction xs with
  | nil => rfl
  | cons x xs ih =>
    rw [List.mapM_cons, ih]
    by_cases hx : P x
    · by_cases hxs : ∀ y ∈ xs, P y
      · rw [if_pos hx, if_pos hxs, if_pos (List.forall_mem_cons.2 ⟨hx, hxs⟩)]
        rfl
      · rw [if_pos hx, if_neg hxs, if_neg fun h => hxs (List.forall_mem_cons.1 h).2]
        rfl
    · rw [if_neg hx, if_neg fun h => hx (List.forall_mem_cons.1 h).1]
      rfl

/-- Items that are all accepted. -/
theorem mapM_eq_ok_map {f : α → Except ε β} {g : α → β} {xs : List α}
    (h : ∀ x ∈ xs, f x = .ok (g x)) : xs.mapM f = .ok (xs.map g) := by
  induction xs with
  | nil => rfl
  | cons x xs ih =>
    rw [List.mapM_cons, h x List.mem_cons_self, ih fun y hy => h y (List.mem_cons_of_mem x hy)]
    rfl

end MusicCatalog
