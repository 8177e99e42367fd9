import Mathlib.Data.List.DropRight
import MusicCatalog.Json.Document
import MusicCatalog.Proofs.Except

/-!
# What readers make of a text

The places of faults are left aside here: a reader is described by what it makes of a text, a value
or the reason of a fault, whatever stands behind the text.

* `reasoned`: a result without the place of its fault;
* `Apart`, `Blanks`: text that does not continue a numeral, and text between tokens;
* **`Reads`**: a reader makes a value, or a fault, of a text;
* `Separated`: written items with commas between them;
* **`reads_readItems`**, **`reads_readMembers`**: the two loops make of separated items what is made
  of one item after the other.
-/

namespace MusicCatalog.Json

variable {α β ι σ : Type}

/-! ## Results without places -/

/-- A result with the reason of its fault, but not the place. -/
def reasoned (result : Except Fault α) : Except Reason α := result.mapError Fault.reason

theorem reasoned_bind (x : Except Fault α) (f : α → Except Fault β) :
    reasoned (x >>= f) = reasoned x >>= fun a => reasoned (f a) := by
  cases x <;> rfl

/-! ## Between tokens -/

/-- Nothing at the front of the text could belong to a numeral before it. -/
def Apart (s : List Char) : Prop :=
  ∀ c ∈ s.head?, c.isDigit = false ∧ c ≠ '.' ∧ c ≠ 'e' ∧ c ≠ 'E'

/-- The text holds nothing but blanks. -/
def Blanks (s : List Char) : Prop := ∀ c ∈ s, isBlank c

/-- The text begins with a character that is neither a blank nor the end of a list. -/
def Solid (t : List Char) : Prop := ∃ c r, t = c :: r ∧ isBlank c = false ∧ c ≠ ']'

theorem blanks_nil : Blanks [] := fun _ hc => absurd hc List.not_mem_nil

theorem apart_nil : Apart [] := by
  intro c hc
  simp at hc

theorem apart_cons {c : Char} {s : List Char}
    (h : c.isDigit = false ∧ c ≠ '.' ∧ c ≠ 'e' ∧ c ≠ 'E') : Apart (c :: s) := by
  intro d hd
  obtain rfl : c = d := by simpa using hd
  exact h

theorem isBlank_iff {c : Char} : isBlank c ↔ c = ' ' ∨ c = '\t' ∨ c = '\n' ∨ c = '\r' := by
  simp [isBlank, or_assoc]

theorem Apart.blanks_append {b s : List Char} (hb : Blanks b) (hs : Apart s) : Apart (b ++ s) := by
  cases b with
  | nil => exact hs
  | cons c b =>
    refine apart_cons ?_
    obtain rfl | rfl | rfl | rfl := isBlank_iff.1 (hb c List.mem_cons_self) <;> decide

theorem skipBlanks_solid {b t u : List Char} (hb : Blanks b) (ht : Solid t) :
    skipBlanks (b ++ (t ++ u)) = t ++ u := by
  obtain ⟨c, r, rfl, hc, -⟩ := ht
  rw [skipBlanks_append hb, List.cons_append, skipBlanks_cons hc]

theorem skipBlanks_skipBlanks (s : List Char) : skipBlanks (skipBlanks s) = skipBlanks s :=
  List.dropWhile_idempotent isBlank s

/-! ## Readers -/

/-- Of a text with anything behind it that keeps apart, the reader makes an outcome, and passes
exactly the text if that is a value. -/
def Reads (r : Reader α) (t : List Char) (o : Except Reason α) : Prop :=
  ∀ rest, Apart rest → reasoned (r (t ++ rest)) = o.map (·, rest)

theorem Reads.bind {r : Reader α} {t rest : List Char} {o : Except Reason α} (h : Reads r t o)
    (hr : Apart rest) (k : α × List Char → Except Fault β) :
    reasoned (r (t ++ rest) >>= k) = o >>= fun a => reasoned (k (a, rest)) := by
  rw [reasoned_bind, h rest hr, map_bind_except]

/-- A value that is turned into another after it has been read. -/
theorem Reads.map {r : Reader α} {t : List Char} {o : Except Reason α} (h : Reads r t o)
    (f : α → β) :
    Reads (fun s => do let (a, rest) ← r s; .ok (f a, rest)) t (o.map f) := by
  intro rest hr
  rw [h.bind hr]
  cases o <;> rfl

/-- The reader passes blanks before it begins. -/
def PassesBlanks (r : Reader α) : Prop := ∀ s, r s = r (skipBlanks s)

theorem PassesBlanks.append {r : Reader α} (h : PassesBlanks r) {b : List Char} (hb : Blanks b)
    (s : List Char) : r (b ++ s) = r s := by
  rw [h (b ++ s), skipBlanks_append hb, ← h s]

/-! ## Separated items -/

/-- Written items with commas between them, and blanks around each. -/
def Separated : List (List Char) → List Char → Prop
  | [], s => Blanks s
  | [t], s => ∃ b b', Blanks b ∧ Blanks b' ∧ s = b ++ (t ++ b')
  | t :: ts, s => ∃ b b' s', Blanks b ∧ Blanks b' ∧ Separated ts s' ∧ s = b ++ (t ++ (b' ++ ',' :: s'))

/-- Some item begins after the blanks of separated items. -/
theorem Separated.skipBlanks_cons {t : List Char} {ts : List (List Char)} {s : List Char}
    (h : Separated (t :: ts) s) (ht : Solid t) (u : List Char) :
    ∃ c r, skipBlanks (s ++ u) = c :: r ∧ t.head? = some c ∧ c ≠ ']' := by
  have key : ∃ b v, Blanks b ∧ s = b ++ (t ++ v) := by
    cases ts with
    | nil =>
      obtain ⟨b, b', hb, -, rfl⟩ := h
      exact ⟨b, b', hb, rfl⟩
    | cons t' ts =>
      obtain ⟨b, b', s', hb, -, -, rfl⟩ := h
      exact ⟨b, _, hb, rfl⟩
  obtain ⟨b, v, hb, rfl⟩ := key
  have hskip : skipBlanks (b ++ (t ++ v) ++ u) = t ++ (v ++ u) := by
    rw [List.append_assoc, List.append_assoc, skipBlanks_solid hb ht]
  obtain ⟨c, r, rfl, -, hc⟩ := ht
  exact ⟨c, r ++ (v ++ u), hskip, rfl, hc⟩

theorem Separated.length_le {ts : List (List Char)} {s : List Char} (h : Separated ts s) :
    ts.length ≤ s.length + 1 := by
  induction ts generalizing s with
  | nil => simp
  | cons t ts ih =>
    cases ts with
    | nil => simp
    | cons t' ts =>
      obtain ⟨b, b', s', -, -, hs, rfl⟩ := h
      have := ih hs
      simp only [List.length_cons, List.length_append] at this ⊢
      omega

/-! ## The loop of a list -/

theorem nextItem_close {item : Reader α} {first : Bool} {b rest : List Char} (hb : Blanks b) :
    nextItem item first (b ++ ']' :: rest) = .ok (none, rest) := by
  rw [nextItem, skipBlanks_append hb, skipBlanks_cons (by decide)]
  rfl

theorem nextItem_first {item : Reader α} {b t u : List Char} (hb : Blanks b) (ht : Solid t) :
    nextItem item true (b ++ (t ++ u)) = item (t ++ u) >>= fun p => .ok (some p.1, p.2) := by
  rw [nextItem, skipBlanks_solid hb ht]
  obtain ⟨c, r, rfl, -, hc⟩ := ht
  simp [hc]

/-- After a comma an item is read as if it were the first. -/
theorem readItems_comma {item : Reader α} {budget : Nat} {before : List α} {b s r : List Char}
    {c : Char} (hb : Blanks b) (hs : skipBlanks s = c :: r) (hc : c ≠ ']') :
    readItems item (budget + 1) false before (b ++ ',' :: s) =
      readItems item (budget + 1) true before s := by
  have h : nextItem item false (b ++ ',' :: s) = nextItem item true s := by
    rw [nextItem, nextItem, skipBlanks_append hb, Json.skipBlanks_cons (by decide)]
    simp [hs, hc]
  rw [readItems, readItems, h]

/-- **A list of separated items**: each item is read in turn, up to the first that is refused. -/
theorem reads_readItems {item : Reader α} {text : ι → List Char} {f : ι → Except Reason α}
    {xs : List ι} {s : List Char} {budget : Nat} (hsolid : ∀ x ∈ xs, Solid (text x))
    (hitem : ∀ x ∈ xs, Reads item (text x) (f x)) (hs : Separated (xs.map text) s)
    (hb : xs.length < budget) :
    Reads (readItems item budget true []) (s ++ [']']) (xs.mapM f) := by
  intro rest _
  rw [List.append_assoc, List.singleton_append]
  suffices key : ∀ before : List α,
      reasoned (readItems item budget true before (s ++ ']' :: rest)) =
        (xs.mapM f).map fun as => (before.reverse ++ as, rest) from key []
  induction xs generalizing s budget with
  | nil =>
    intro before
    obtain ⟨budget, rfl⟩ : ∃ n, budget = n + 1 := ⟨budget - 1, by omega⟩
    rw [readItems, nextItem_close hs]
    change _ = Except.ok (before.reverse ++ [], rest)
    rw [List.append_nil]
    rfl
  | cons x xs ih =>
    intro before
    obtain ⟨budget, rfl⟩ : ∃ n, budget = n + 2 :=
      ⟨budget - 2, by simp only [List.length_cons] at hb; omega⟩
    have hx := hsolid x List.mem_cons_self
    have hsolid' := fun y hy => hsolid y (List.mem_cons_of_mem x hy)
    have hitem' := fun y hy => hitem y (List.mem_cons_of_mem x hy)
    have hb' : xs.length < budget + 1 := by simp only [List.length_cons] at hb; omega
    -- the text of the item, and what stands behind it: a bracket, or a comma and further items
    have step : ∃ b u, Blanks b ∧ Apart u ∧ s ++ ']' :: rest = b ++ (text x ++ u) ∧
        ∀ a, reasoned (readItems item (budget + 1) false (a :: before) u) =
          (xs.mapM f).map fun as => (before.reverse ++ a :: as, rest) := by
      cases xs with
      | nil =>
        obtain ⟨b, b', h, h', rfl⟩ := hs
        refine ⟨b, b' ++ ']' :: rest, h, .blanks_append h' (apart_cons (by decide)),
          by simp only [List.append_assoc], fun a => ?_⟩
        rw [readItems, nextItem_close h']
        change Except.ok ((a :: before).reverse, rest) = Except.ok (before.reverse ++ [a], rest)
        rw [List.reverse_cons]
      | cons y ys =>
        obtain ⟨b, b', s', h, h', hs', rfl⟩ := hs
        refine ⟨b, b' ++ ',' :: (s' ++ ']' :: rest), h, .blanks_append h' (apart_cons (by decide)),
          by simp only [List.append_assoc, List.cons_append], fun a => ?_⟩
        obtain ⟨c, r, hr, -, hc⟩ :=
          hs'.skipBlanks_cons (hsolid' y List.mem_cons_self) (']' :: rest)
        rw [readItems_comma h' hr hc, ih hsolid' hitem' hs' hb']
        simp only [List.reverse_cons, List.append_assoc, List.singleton_append]
    obtain ⟨b, u, hbl, hu, he, hrest⟩ := step
    rw [he, readItems, nextItem_first hbl hx, bind_assoc, (hitem x List.mem_cons_self).bind hu,
      List.mapM_cons]
    cases f x with
    | error reason => rfl
    | ok a =>
      refine (hrest a).trans ?_
      change _ = Except.map _ ((xs.mapM f).map (a :: ·))
      cases xs.mapM f <;> rfl

/-! ## The loop of an object -/

/-- The text is a literal of a string, whatever stands behind it. -/
def Literal (t : List Char) (k : String) : Prop :=
  ∃ u, t = '"' :: u ∧ ∀ rest, readString (u ++ rest) = .ok (k, rest)

theorem Literal.solid {t : List Char} {k : String} (h : Literal t k) (u : List Char) :
    Solid (t ++ u) := by
  obtain ⟨v, rfl, -⟩ := h
  exact ⟨'"', v ++ u, rfl, by decide, by decide⟩

theorem nextKey_close {first : Bool} {b rest : List Char} (hb : Blanks b) :
    nextKey first (b ++ '}' :: rest) = .ok (none, rest) := by
  rw [nextKey, skipBlanks_append hb, skipBlanks_cons (by decide)]
  rfl

theorem nextKey_first {b t u : List Char} {k : String} (hb : Blanks b) (ht : Literal t k) :
    nextKey true (b ++ (t ++ u)) = .ok (some k, u) := by
  obtain ⟨v, rfl, hv⟩ := ht
  rw [nextKey, skipBlanks_append hb, List.cons_append, skipBlanks_cons (by decide)]
  change (readString (v ++ u) >>= fun p => Except.ok (some p.1, p.2)) = _
  rw [hv u]
  rfl

/-- After a comma a member is read as if it were the first. -/
theorem readMembers_comma {member : σ → String → Reader σ} {budget : Nat} {state : σ}
    {b s r : List Char} (hb : Blanks b) (hs : skipBlanks s = '"' :: r) :
    readMembers member (budget + 1) false state (b ++ ',' :: s) =
      readMembers member (budget + 1) true state s := by
  have h : nextKey false (b ++ ',' :: s) = nextKey true s := by
    rw [nextKey, nextKey, skipBlanks_append hb, skipBlanks_cons (by decide)]
    simp [hs]
  rw [readMembers, readMembers, h]

/-- **An object of separated members**: each member in turn changes the state, up to the first that
is refused. -/
theorem reads_readMembers {member : σ → String → Reader σ} {key : ι → String}
    {keyText tail : ι → List Char} {g : σ → ι → Except Reason σ} {xs : List ι} {s : List Char}
    {budget : Nat} (hkey : ∀ x ∈ xs, Literal (keyText x) (key x))
    (hmember : ∀ x ∈ xs, ∀ state, Reads (member state (key x)) (tail x) (g state x))
    (hs : Separated (xs.map fun x => keyText x ++ tail x) s) (hb : xs.length < budget) (state : σ) :
    Reads (readMembers member budget true state) (s ++ ['}']) (xs.foldlM g state) := by
  intro rest _
  rw [List.append_assoc, List.singleton_append]
  induction xs generalizing s budget state with
  | nil =>
    obtain ⟨budget, rfl⟩ : ∃ n, budget = n + 1 := ⟨budget - 1, by omega⟩
    rw [readMembers, nextKey_close hs]
    rfl
  | cons x xs ih =>
    obtain ⟨budget, rfl⟩ : ∃ n, budget = n + 2 :=
      ⟨budget - 2, by simp only [List.length_cons] at hb; omega⟩
    have hx := hkey x List.mem_cons_self
    have hkey' := fun y hy => hkey y (List.mem_cons_of_mem x hy)
    have hmember' := fun y hy => hmember y (List.mem_cons_of_mem x hy)
    have hb' : xs.length < budget + 1 := by simp only [List.length_cons] at hb; omega
    -- what stands behind the member: a brace, or a comma and further members
    have step : ∃ b u, Blanks b ∧ Apart u ∧
        s ++ '}' :: rest = b ++ (keyText x ++ (tail x ++ u)) ∧
        ∀ state', reasoned (readMembers member (budget + 1) false state' u) =
          (xs.foldlM g state').map (·, rest) := by
      cases xs with
      | nil =>
        obtain ⟨b, b', h, h', rfl⟩ := hs
        refine ⟨b, b' ++ '}' :: rest, h, .blanks_append h' (apart_cons (by decide)),
          by simp only [List.append_assoc], fun state' => ?_⟩
        rw [readMembers, nextKey_close h']
        rfl
      | cons y ys =>
        obtain ⟨b, b', s', h, h', hs', rfl⟩ := hs
        refine ⟨b, b' ++ ',' :: (s' ++ '}' :: rest), h, .blanks_append h' (apart_cons (by decide)),
          by simp only [List.append_assoc, List.cons_append], fun state' => ?_⟩
        have hy := hkey' y List.mem_cons_self
        obtain ⟨c, r, hr, hhead, -⟩ := hs'.skipBlanks_cons (hy.solid (tail y)) ('}' :: rest)
        obtain ⟨v, hv, -⟩ := hy
        obtain rfl : '"' = c := by simpa [hv] using hhead
        rw [readMembers_comma h' hr, ih hkey' hmember' hs' hb']
    obtain ⟨b, u, hbl, hu, he, hrest⟩ := step
    rw [he, readMembers, nextKey_first hbl hx]
    change reasoned (member state (key x) (tail x ++ u) >>= fun p =>
      readMembers member (budget + 1) false p.1 p.2) = _
    rw [(hmember x List.mem_cons_self state).bind hu, List.foldlM_cons]
    cases g state x with
    | error reason => rfl
    | ok state' => exact hrest state'

/-! ## Members by key -/

theorem colon_append {b u : List Char} (hb : Blanks b) : colon (b ++ ':' :: u) = .ok u := by
  rw [colon, skipBlanks_append hb, skipBlanks_cons (by decide)]
  rfl

/-- The value of a key, after a colon and blanks. -/
theorem reads_keyed {value : Reader α} {b b' t : List Char} {o : Except Reason α}
    (hvalue : PassesBlanks value) (hb : Blanks b) (hb' : Blanks b') (h : Reads value t o) :
    Reads (keyed value) (b ++ ':' :: b' ++ t) o := by
  intro rest hr
  have hcolon : colon (b ++ ':' :: b' ++ t ++ rest) = .ok (b' ++ (t ++ rest)) := by
    simp only [List.append_assoc, List.cons_append]
    exact colon_append hb
  rw [keyed, hcolon]
  change reasoned (value (b' ++ (t ++ rest))) = _
  rw [hvalue.append hb', h rest hr]

theorem reads_gather {value : Reader Value} {t : List Char} {o : Except Reason Value}
    (h : Reads (keyed value) t o) (before : Members) (key : String) :
    Reads (gather value before key) t (o.map fun v => (key, v) :: before) :=
  h.map fun v => (key, v) :: before

/-- The outcome of a member that may occur once, by what it had before. -/
def once (name : String) (seen : Option α) (o : Except Reason α) : Except Reason α :=
  if seen.isSome then .error (.repeatedField name) else o

theorem reads_memberOnce {name : String} {seen : Option α} {value : Reader α} {t : List Char}
    {o : Except Reason α} (h : Reads (keyed value) t o) :
    Reads (memberOnce name seen value) t (once name seen o) := by
  intro rest hr
  unfold memberOnce once
  split_ifs
  · rfl
  · exact h rest hr

end MusicCatalog.Json
