import MusicCatalog.Proofs.Json.Given
import MusicCatalog.Proofs.Json.Numerals
import MusicCatalog.Proofs.Json.Strings

/-!
# What readers take

A reader that accepts a text has taken something from its front. Whatever the text was, that is a
production of the grammar, and its meaning is what the reader gives.

* `Takes`: what a reader takes, behind blanks, is related to what it gives;
* **`Takes.readItems`**, **`TakesMember.readMembers`**: the two loops take separated items, and members
  that change a state one after the other;
* `spells_of_readScalar`, **`takes_readValue`**: any value;
* `Takes.document`: whole texts.
-/

namespace MusicCatalog.Json

open Grammar

variable {α ι σ ν : Type}

/-- What the reader takes from the front of a text, behind blanks, is related to what it gives. -/
def Takes (r : Reader α) (P : List Char → α → Prop) : Prop :=
  ∀ s a rest, r s = .ok (a, rest) → ∃ b t, Blanks b ∧ P t a ∧ s = b ++ (t ++ rest)

theorem Takes.and_gives {r : Reader α} {P : List Char → α → Prop} {Q : α → Prop}
    (h : Takes r P) (hg : Gives r Q) : Takes r fun t a => P t a ∧ Q a := by
  intro s a rest hs
  obtain ⟨b, t, hb, ht, h⟩ := h s a rest hs
  exact ⟨b, t, hb, ⟨ht, hg s _ hs⟩, h⟩

theorem Takes.mono {r : Reader α} {P Q : List Char → α → Prop} (h : Takes r P)
    (hPQ : ∀ t a, P t a → Q t a) : Takes r Q := by
  intro s a rest hs
  obtain ⟨b, t, hb, ht, hs⟩ := h s a rest hs
  exact ⟨b, t, hb, hPQ t a ht, hs⟩

theorem exists_blanks (s : List Char) : ∃ b, Blanks b ∧ s = b ++ skipBlanks s :=
  ⟨s.takeWhile isBlank, fun _ hc => List.mem_takeWhile_imp hc, List.takeWhile_append_dropWhile.symm⟩

theorem exists_front {s r : List Char} {c : Char} (h : skipBlanks s = c :: r) :
    ∃ b, Blanks b ∧ s = b ++ c :: r := by
  obtain ⟨b, hb, hs⟩ := exists_blanks s
  rw [h] at hs
  exact ⟨b, hb, hs⟩

theorem Blanks.append {b b' : List Char} (hb : Blanks b) (hb' : Blanks b') : Blanks (b ++ b') :=
  fun c hc => (List.mem_append.1 hc).elim (hb c) (hb' c)

/-! ## Lists -/

/-- Further items up to a closing bracket, each behind a comma. -/
inductive Further : List (List Char) → List Char → Prop
  | nil {s : List Char} (hs : Blanks s) : Further [] s
  | cons {b b' t s : List Char} {ts : List (List Char)} (hb : Blanks b) (hb' : Blanks b')
    (hs : Further ts s) : Further (t :: ts) (b ++ ',' :: (b' ++ (t ++ s)))

theorem Further.separated {ts : List (List Char)} {s : List Char} (h : Further ts s)
    {b : List Char} (hb : Blanks b) (t : List Char) : Separated (t :: ts) (b ++ (t ++ s)) := by
  induction h generalizing b t with
  | nil hs => exact ⟨b, _, hb, hs, rfl⟩
  | cons hb₁ hb₂ _ ih => exact ⟨b, _, _, hb, hb₁, ih hb₂ _, rfl⟩

/-- The text of a list of some items. -/
def IsList (P : List Char → α → Prop) (t : List Char) (as : List α) : Prop :=
  ∃ ts s, List.Forall₂ P ts as ∧ Separated ts s ∧ t = '[' :: (s ++ [']'])

/-- A list of things that are in turn known from others is a list of those others. -/
theorem isList_exists_iff {P : List Char → ι → Prop} {R : ι → α → Prop} {t : List Char}
    {as : List α} :
    IsList (fun u a => ∃ i, P u i ∧ R i a) t as ↔ ∃ is, IsList P t is ∧ List.Forall₂ R is as := by
  simp only [IsList, forall₂_exists_iff]
  constructor
  · rintro ⟨ts, s, ⟨is, his, has⟩, hs, rfl⟩
    exact ⟨is, ⟨ts, s, his, hs, rfl⟩, has⟩
  · rintro ⟨is, ⟨ts, s, his, hs, rfl⟩, has⟩
    exact ⟨ts, s, ⟨is, his, has⟩, hs, rfl⟩

section Items

variable {item : Reader α} {P : List Char → α → Prop} {s rest : List Char} {a : α}

theorem blanks_of_nextItem {first : Bool} (h : nextItem item first s = .ok (none, rest)) :
    ∃ b, Blanks b ∧ s = b ++ ']' :: rest := by
  have hsome : ∀ t, (item t >>= fun p => Except.ok (some p.1, p.2)) ≠ .ok (none, rest) := by
    intro t ht
    obtain ⟨p, -, hp⟩ := bind_eq_ok.1 ht
    cases hp
  unfold nextItem at h
  split at h
  · cases h
  · next c r hskip =>
    obtain ⟨b, hb, rfl⟩ := exists_front hskip
    split_ifs at h with hc hfirst
    · cases h
      exact ⟨b, hb, by rw [hc]⟩
    · exact absurd h (hsome _)
    · split at h
      · cases h
      · split_ifs at h
        exact absurd h (hsome _)

theorem Takes.found (h : Takes item P) {t : List Char}
    (ht : (item t >>= fun p => Except.ok (some p.1, p.2)) = .ok (some a, rest)) :
    ∃ b u, Blanks b ∧ P u a ∧ t = b ++ (u ++ rest) := by
  obtain ⟨⟨x, r⟩, hp, hx⟩ := bind_eq_ok.1 ht
  cases hx
  exact h _ _ _ hp

theorem Takes.firstItem (h : Takes item P) (hs : nextItem item true s = .ok (some a, rest)) :
    ∃ b t, Blanks b ∧ P t a ∧ s = b ++ (t ++ rest) := by
  unfold nextItem at hs
  split at hs
  · cases hs
  · next c r hskip =>
    obtain ⟨b, hb, rfl⟩ := exists_front hskip
    rw [if_pos rfl] at hs
    split_ifs at hs
    · cases hs
    · obtain ⟨b', t, hb', ht, hr⟩ := h.found hs
      exact ⟨b ++ b', t, hb.append hb', ht, by rw [hr, List.append_assoc]⟩

theorem Takes.laterItem (h : Takes item P) (hs : nextItem item false s = .ok (some a, rest)) :
    ∃ b b' t, Blanks b ∧ Blanks b' ∧ P t a ∧ s = b ++ ',' :: (b' ++ (t ++ rest)) := by
  unfold nextItem at hs
  split at hs
  · cases hs
  · next c r hskip =>
    obtain ⟨b, hb, rfl⟩ := exists_front hskip
    rw [if_neg Bool.false_ne_true] at hs
    split_ifs at hs with hclose hc
    · cases hs
    · split at hs
      · cases hs
      · next d r' hskip' =>
        obtain ⟨b', hb', rfl⟩ := exists_front hskip'
        split_ifs at hs
        obtain ⟨b₂, t, hb₂, ht, hr⟩ := h.found hs
        exact ⟨b, b' ++ b₂, t, hb, hb'.append hb₂, ht, by rw [hr, hc, List.append_assoc]⟩

theorem Takes.further (h : Takes item P) (budget : Nat) {before as : List α}
    (hs : readItems item budget false before s = .ok (as, rest)) :
    ∃ ts new u, as = before.reverse ++ new ∧ List.Forall₂ P ts new ∧ Further ts u ∧
      s = u ++ ']' :: rest := by
  induction budget generalizing before s with
  | zero => cases hs
  | succ budget ih =>
    rw [Json.readItems] at hs
    obtain ⟨⟨next, r⟩, hnext, hround⟩ := bind_eq_ok.1 hs
    cases next with
    | none =>
      cases hround
      obtain ⟨b, hb, rfl⟩ := blanks_of_nextItem hnext
      exact ⟨[], [], b, (List.append_nil _).symm, .nil, .nil hb, rfl⟩
    | some a =>
      obtain ⟨b, b', t, hb, hb', ht, rfl⟩ := h.laterItem hnext
      obtain ⟨ts, new, u, rfl, hnew, hu, rfl⟩ := ih hround
      refine ⟨t :: ts, a :: new, _, ?_, .cons ht hnew, .cons hb hb' hu, ?_⟩
      · rw [List.reverse_cons, List.append_assoc, List.singleton_append]
      · simp only [List.append_assoc, List.cons_append]

/-- **The loop of a list** takes separated items and the closing bracket. -/
theorem Takes.readItems (h : Takes item P) {budget : Nat} {as : List α}
    (hs : readItems item budget true [] s = .ok (as, rest)) :
    ∃ ts u, List.Forall₂ P ts as ∧ Separated ts u ∧ s = u ++ ']' :: rest := by
  cases budget with
  | zero => cases hs
  | succ budget =>
    rw [Json.readItems] at hs
    obtain ⟨⟨next, r⟩, hnext, hround⟩ := bind_eq_ok.1 hs
    cases next with
    | none =>
      cases hround
      obtain ⟨b, hb, rfl⟩ := blanks_of_nextItem hnext
      exact ⟨[], b, .nil, hb, rfl⟩
    | some a =>
      obtain ⟨b, t, hb, ht, rfl⟩ := h.firstItem hnext
      obtain ⟨ts, new, u, rfl, hnew, hu, rfl⟩ := h.further budget hround
      exact ⟨t :: ts, _, .cons ht hnew, hu.separated hb t, by simp only [List.append_assoc]⟩

end Items

/-! ## Objects -/

/-- What stands behind a key: a colon, and what is related to a result. -/
def BehindColon (P : List Char → α → Prop) (t : List Char) (a : α) : Prop :=
  ∃ b b' u, Blanks b ∧ Blanks b' ∧ P u a ∧ t = b ++ ':' :: (b' ++ u)

/-- A key, and behind its colon what is related to a result. -/
def KeyedBy (P : List Char → ν → Prop) (t : List Char) (m : String × ν) : Prop :=
  ∃ k u, SpellsString k m.1 ∧ BehindColon P u m.2 ∧ t = k ++ u

/-- The text of an object with some members. -/
def IsObject (P : List Char → ν → Prop) (t : List Char) (ms : List (String × ν)) : Prop :=
  ∃ ts s, List.Forall₂ (KeyedBy P) ts ms ∧ Separated ts s ∧ t = '{' :: (s ++ ['}'])

theorem spellsMember_iff {t : List Char} {m : String × Value} :
    SpellsMember t m ↔ KeyedBy Spells t m := by
  constructor
  · rintro ⟨k, b, b', u, hk, hb, hb', hu, rfl⟩
    exact ⟨k, _, hk, ⟨b, b', u, hb, hb', hu, rfl⟩, rfl⟩
  · rintro ⟨k, t, hk, ⟨b, b', u, hb, hb', hu, rfl⟩, rfl⟩
    exact ⟨k, b, b', u, hk, hb, hb', hu, rfl⟩

/-- An object of the grammar is the text of its members. -/
theorem spells_obj_iff_isObject {t : List Char} {ms : Members} :
    Spells t (.obj ms) ↔ IsObject Spells t ms := by
  have hmember : SpellsMember = KeyedBy Spells := by
    funext t m
    exact propext spellsMember_iff
  rw [spells_obj_iff, hmember, IsObject]

theorem blanks_of_colon {s r : List Char} (h : colon s = .ok r) :
    ∃ b, Blanks b ∧ s = b ++ ':' :: r := by
  unfold colon at h
  split at h
  · cases h
  · next c s' hskip =>
    obtain ⟨b, hb, rfl⟩ := exists_front hskip
    split_ifs at h with hc
    cases h
    exact ⟨b, hb, by rw [hc]⟩

theorem Takes.keyed {value : Reader α} {P : List Char → α → Prop} (h : Takes value P)
    {s rest : List Char} {a : α} (hs : keyed value s = .ok (a, rest)) :
    ∃ t, BehindColon P t a ∧ s = t ++ rest := by
  obtain ⟨r, hcolon, hvalue⟩ := bind_eq_ok.1 hs
  obtain ⟨b', u, hb', hu, rfl⟩ := h _ _ _ hvalue
  obtain ⟨b, hb, rfl⟩ := blanks_of_colon hcolon
  exact ⟨_, ⟨b, b', u, hb, hb', hu, rfl⟩, by simp⟩

/-- What is read into a place behind a key is the first for that place. -/
theorem Takes.memberOnce {value : Reader α} {P : List Char → ν → Prop} {Q : ν → α → Prop}
    (h : Takes value fun t a => ∃ v, P t v ∧ Q v a) {name : String} {seen : Option α}
    {s rest : List Char} {a : α} (hs : memberOnce name seen value s = .ok (a, rest)) :
    seen = none ∧ ∃ u v, BehindColon P u v ∧ Q v a ∧ s = u ++ rest := by
  unfold Json.memberOnce at hs
  split_ifs at hs with hseen
  obtain ⟨u, ⟨b, b', t, hb, hb', ⟨v, ht, hv⟩, hu⟩, rfl⟩ := h.keyed hs
  exact ⟨by simpa using hseen, u, v, ⟨b, b', t, hb, hb', ht, hu⟩, hv, rfl⟩

/-- Each member in turn leads from one state to the next. -/
inductive Chain (R : σ → String × ν → σ → Prop) : σ → List (String × ν) → σ → Prop
  | nil {a : σ} : Chain R a [] a
  | cons {a b c : σ} {m : String × ν} {ms : List (String × ν)} (h : R a m b)
    (hs : Chain R b ms c) : Chain R a (m :: ms) c

/-- What is taken behind a key is a colon and a value, and that member changes the state. -/
def TakesMember (member : σ → String → Reader σ) (P : List Char → ν → Prop)
    (R : σ → String × ν → σ → Prop) : Prop :=
  ∀ state key s state' rest, member state key s = .ok (state', rest) →
    ∃ t v, BehindColon P t v ∧ R state (key, v) state' ∧ s = t ++ rest

section Members

variable {member : σ → String → Reader σ} {P : List Char → ν → Prop} {R : σ → String × ν → σ → Prop}
  {s rest : List Char} {key : String} {state state' : σ}

theorem blanks_of_nextKey {first : Bool} (h : nextKey first s = .ok (none, rest)) :
    ∃ b, Blanks b ∧ s = b ++ '}' :: rest := by
  have hsome : ∀ t, (readString t >>= fun p => Except.ok (some p.1, p.2)) ≠ .ok (none, rest) := by
    intro t ht
    obtain ⟨p, -, hp⟩ := bind_eq_ok.1 ht
    cases hp
  unfold nextKey at h
  split at h
  · cases h
  · next c r hskip =>
    obtain ⟨b, hb, rfl⟩ := exists_front hskip
    split_ifs at h with hc
    · cases h
      exact ⟨b, hb, by rw [hc]⟩
    · exact absurd h (hsome _)
    · split at h
      · cases h
      · split_ifs at h
        exact absurd h (hsome _)

theorem spells_of_key {t : List Char}
    (ht : (readString t >>= fun p => Except.ok (some p.1, p.2)) = .ok (some key, rest)) :
    ∃ k, SpellsString k key ∧ '"' :: t = k ++ rest := by
  obtain ⟨⟨x, r⟩, hp, hx⟩ := bind_eq_ok.1 ht
  cases hx
  obtain ⟨u, hu, rfl⟩ := spells_of_readString hp
  exact ⟨_, hu, rfl⟩

theorem firstKey (h : nextKey true s = .ok (some key, rest)) :
    ∃ b k, Blanks b ∧ SpellsString k key ∧ s = b ++ (k ++ rest) := by
  unfold nextKey at h
  split at h
  · cases h
  · next c r hskip =>
    obtain ⟨b, hb, rfl⟩ := exists_front hskip
    rw [if_pos rfl] at h
    split_ifs at h with hclose hc
    · cases h
    · obtain ⟨k, hk, hr⟩ := spells_of_key h
      exact ⟨b, k, hb, hk, by rw [hc, hr]⟩

theorem laterKey (h : nextKey false s = .ok (some key, rest)) :
    ∃ b b' k, Blanks b ∧ Blanks b' ∧ SpellsString k key ∧ s = b ++ ',' :: (b' ++ (k ++ rest)) := by
  unfold nextKey at h
  split at h
  · cases h
  · next c r hskip =>
    obtain ⟨b, hb, rfl⟩ := exists_front hskip
    rw [if_neg Bool.false_ne_true] at h
    split_ifs at h with hclose hc
    · cases h
    · split at h
      · cases h
      · next d r' hskip' =>
        obtain ⟨b', hb', rfl⟩ := exists_front hskip'
        split_ifs at h with hd
        obtain ⟨k, hk, hr⟩ := spells_of_key h
        exact ⟨b, b', k, hb, hb', hk, by rw [hc, hd, hr]⟩

theorem TakesMember.further (h : TakesMember member P R) (budget : Nat)
    (hs : readMembers member budget false state s = .ok (state', rest)) :
    ∃ ts ms u, List.Forall₂ (KeyedBy P) ts ms ∧ Chain R state ms state' ∧ Further ts u ∧
      s = u ++ '}' :: rest := by
  induction budget generalizing state s with
  | zero => cases hs
  | succ budget ih =>
    rw [Json.readMembers] at hs
    obtain ⟨⟨next, r⟩, hnext, hround⟩ := bind_eq_ok.1 hs
    cases next with
    | none =>
      cases hround
      obtain ⟨b, hb, rfl⟩ := blanks_of_nextKey hnext
      exact ⟨[], [], b, .nil, .nil, .nil hb, rfl⟩
    | some key =>
      obtain ⟨⟨middle, r'⟩, hmember, hloop⟩ := bind_eq_ok.1 hround
      obtain ⟨b, b', k, hb, hb', hk, rfl⟩ := laterKey hnext
      obtain ⟨t, v, ht, hR, rfl⟩ := h _ _ _ _ _ hmember
      obtain ⟨ts, ms, u, hms, hchain, hu, rfl⟩ := ih hloop
      refine ⟨_, _, _, .cons ⟨k, t, hk, ht, rfl⟩ hms, .cons hR hchain, .cons hb hb' hu, ?_⟩
      simp only [List.append_assoc, List.cons_append]

/-- **The loop of an object** takes separated members and the closing brace. -/
theorem TakesMember.readMembers (h : TakesMember member P R) {budget : Nat}
    (hs : readMembers member budget true state s = .ok (state', rest)) :
    ∃ t ms, IsObject P ('{' :: t) ms ∧ Chain R state ms state' ∧ s = t ++ rest := by
  cases budget with
  | zero => cases hs
  | succ budget =>
    rw [Json.readMembers] at hs
    obtain ⟨⟨next, r⟩, hnext, hround⟩ := bind_eq_ok.1 hs
    cases next with
    | none =>
      cases hround
      obtain ⟨b, hb, rfl⟩ := blanks_of_nextKey hnext
      exact ⟨b ++ ['}'], [], ⟨[], b, .nil, hb, rfl⟩, .nil, by simp⟩
    | some key =>
      obtain ⟨⟨middle, r'⟩, hmember, hloop⟩ := bind_eq_ok.1 hround
      obtain ⟨b, k, hb, hk, rfl⟩ := firstKey hnext
      obtain ⟨t, v, ht, hR, rfl⟩ := h _ _ _ _ _ hmember
      obtain ⟨ts, ms, u, hms, hchain, hu, rfl⟩ := h.further budget hloop
      refine ⟨_, _, ⟨_, _, .cons ⟨k, t, hk, ht, rfl⟩ hms, hu.separated hb _, rfl⟩,
        .cons hR hchain, ?_⟩
      simp only [List.append_assoc, List.cons_append, List.nil_append]

/-- Gathering adds a member in front. -/
theorem Takes.gather {value : Reader Value} {Q : Value → Prop}
    (h : Takes value fun t v => Spells t v ∧ Q v) :
    TakesMember (gather value) Spells fun before m after => Q m.2 ∧ after = m :: before := by
  intro before key s after rest hs
  obtain ⟨⟨v, r⟩, hv, hs⟩ := bind_eq_ok.1 hs
  cases hs
  obtain ⟨t, ⟨b, b', u, hb, hb', ⟨hu, hQ⟩, ht⟩, rfl⟩ := h.keyed hv
  exact ⟨t, v, ⟨b, b', u, hb, hb', hu, ht⟩, ⟨hQ, rfl⟩, rfl⟩

end Members

/-- What is true of the members is not a matter of the states. -/
theorem Chain.forall_and {Q : String × ν → Prop} {R : σ → String × ν → σ → Prop} {a b : σ}
    {ms : List (String × ν)} (h : Chain (fun a m b => Q m ∧ R a m b) a ms b) :
    (∀ m ∈ ms, Q m) ∧ Chain R a ms b := by
  induction h with
  | nil => exact ⟨List.forall_mem_nil _, .nil⟩
  | cons h _ ih => exact ⟨List.forall_mem_cons.2 ⟨h.1, ih.1⟩, .cons h.2 ih.2⟩

theorem Chain.gathered {before after ms : Members}
    (h : Chain (fun before m after => after = m :: before) before ms after) :
    after = ms.reverse ++ before := by
  induction h with
  | nil => rfl
  | cons h _ ih => rw [ih, h, List.reverse_cons, List.append_assoc, List.singleton_append]

/-! ## Any value -/

theorem spells_of_numeral {negative : Bool} {s rest : List Char} {v : Value}
    (h : numeral negative s = .ok (v, rest)) :
    ∃ t x, IsUnsigned t x ∧ x.negative = negative ∧ x.value? = some v ∧ s = t ++ rest := by
  obtain ⟨t, x, r, ht, rfl, hr, rfl⟩ := exists_unsigned h
  have hvalue := numeral_unsigned ht hr
  rw [h] at hvalue
  obtain ⟨w, hw, hpair⟩ := Option.map_eq_some_iff.1 hvalue.symm
  cases hpair
  exact ⟨t, x, ht, rfl, hw, rfl⟩

theorem SpellsString.spells {t : List Char} {k : String} (h : SpellsString t k) :
    Spells t (.str k) := by
  obtain ⟨gs, cs, hgs, hcs, rfl⟩ := h
  exact ⟨.string gs, .string hgs, by simp [Phrase.value?, hcs]⟩

/-- A scalar that is read was spelled. -/
theorem spells_of_readScalar {s rest : List Char} {v : Value} (h : readScalar s = .ok (v, rest)) :
    ∃ t, Spells t v ∧ s = t ++ rest := by
  cases s with
  | nil => cases h
  | cons c s =>
    rw [readScalar] at h
    split_ifs at h with hquote hminus hdigit hn ht hf
    · obtain ⟨⟨k, r⟩, hk, h⟩ := bind_eq_ok.1 h
      cases h
      obtain ⟨t, ht, rfl⟩ := spells_of_readString hk
      exact ⟨'"' :: t, ht.spells, by rw [hquote]; rfl⟩
    · obtain ⟨t, x, hx, hneg, hv, rfl⟩ := spells_of_numeral h
      refine ⟨'-' :: t, ⟨.number x, .number (.minus hx hneg), ?_⟩, by rw [hminus]; rfl⟩
      rw [Phrase.value?, hv]
    · obtain ⟨t, x, hx, hneg, hv, hs⟩ := spells_of_numeral h
      refine ⟨t, ⟨.number x, .number (.unsigned hx hneg), ?_⟩, hs⟩
      rw [Phrase.value?, hv]
    · obtain ⟨r, hword, h⟩ := bind_eq_ok.1 h
      cases h
      exact ⟨_, ⟨.null, .null, rfl⟩, by rw [hn, eq_append_of_word hword]; rfl⟩
    · obtain ⟨r, hword, h⟩ := bind_eq_ok.1 h
      cases h
      exact ⟨_, ⟨.bool true, .yes, rfl⟩, by rw [ht, eq_append_of_word hword]; rfl⟩
    · obtain ⟨r, hword, h⟩ := bind_eq_ok.1 h
      cases h
      exact ⟨_, ⟨.bool false, .no, rfl⟩, by rw [hf, eq_append_of_word hword]; rfl⟩

/-- What is behind the opening bracket is read by the loops, all else as a scalar. -/
theorem takes_valueAround (budget : Nat) {inner : Option (Reader Value)} {P : Value → Prop}
    (h : ∀ value ∈ inner, Takes value fun t v => Spells t v ∧ P v) :
    Takes (valueAround budget inner) Spells := by
  intro s v rest hs
  unfold valueAround at hs
  split at hs
  · cases hs
  · next c r hskip =>
    obtain ⟨b, hb, rfl⟩ := exists_front hskip
    split_ifs at hs with hlist hobj
    · cases inner with
      | none => cases hs
      | some value =>
        obtain ⟨⟨items, r'⟩, hitems, hs⟩ := bind_eq_ok.1 hs
        cases hs
        obtain ⟨ts, u, hts, hu, rfl⟩ := (h value rfl).readItems hitems
        have hspells : List.Forall₂ Spells ts items := hts.imp fun _ _ h => h.1
        exact ⟨b, _, hb, spells_arr_iff.2 ⟨ts, u, hspells, hu, rfl⟩, by simp [hlist]⟩
    · cases inner with
      | none => cases hs
      | some value =>
        obtain ⟨⟨members, r'⟩, hmembers, hs⟩ := bind_eq_ok.1 hs
        cases hs
        obtain ⟨t, ms, ht, hchain, rfl⟩ := (h value rfl).gather.readMembers hmembers
        obtain rfl := hchain.forall_and.2.gathered
        rw [List.append_nil, List.reverse_reverse]
        exact ⟨b, _, hb, spells_obj_iff_isObject.2 ht, by simp [hobj]⟩
    · obtain ⟨t, ht, hcr⟩ := spells_of_readScalar hs
      exact ⟨b, t, hb, ht, by rw [hcr]⟩

/-- **A value that is read** was spelled. -/
theorem takes_readValue (budget room : Nat) :
    Takes (readValue budget room) fun t v => Spells t v ∧ v.depth ≤ room := by
  induction room with
  | zero =>
    have h : Takes (readValue budget 0) Spells :=
      takes_valueAround (P := fun v => v.depth ≤ 0) budget fun value hvalue => by cases hvalue
    exact h.and_gives (depth_readValue budget 0)
  | succ room ih =>
    have h : Takes (readValue budget (room + 1)) Spells := by
      refine takes_valueAround (P := fun v => v.depth ≤ room) budget fun value hvalue => ?_
      cases hvalue
      exact ih
    exact h.and_gives (depth_readValue budget (room + 1))

/-! ## Values of one kind -/

theorem takes_stringValue : Takes stringValue fun t k => ∃ v, Spells t v ∧ v = .str k := by
  intro s k rest hs
  unfold stringValue at hs
  split at hs
  · cases hs
  · next c r hskip =>
    obtain ⟨b, hb, rfl⟩ := exists_front hskip
    split_ifs at hs with hc
    obtain ⟨t, ht, rfl⟩ := spells_of_readString hs
    exact ⟨b, _, hb, ⟨_, ht.spells, rfl⟩, by rw [hc]; rfl⟩

theorem Takes.listOf {item : Nat → Reader α} {P : List Char → α → Prop} {room : Nat}
    (h : Takes (item room) P) (budget : Nat) :
    Takes (listOf item budget (room + 1)) (IsList P) := by
  intro s as rest hs
  unfold Json.listOf at hs
  split at hs
  · cases hs
  · next c r hskip =>
    obtain ⟨b, hb, rfl⟩ := exists_front hskip
    split_ifs at hs with hc
    obtain ⟨ts, u, hts, hu, rfl⟩ := h.readItems hs
    exact ⟨b, _, hb, ⟨ts, u, hts, hu, rfl⟩, by simp [hc]⟩

theorem TakesMember.objectOf {expected : String} {member : Nat → σ → String → Reader σ}
    {P : List Char → ν → Prop} {R : σ → String × ν → σ → Prop} {room : Nat}
    (h : TakesMember (member room) P R) (start : σ) (budget : Nat) :
    Takes (objectOf expected member start budget (room + 1)) fun t state =>
      ∃ ms, IsObject P t ms ∧ Chain R start ms state := by
  intro s state rest hs
  unfold Json.objectOf at hs
  split at hs
  · cases hs
  · next c r hskip =>
    obtain ⟨b, hb, rfl⟩ := exists_front hskip
    split_ifs at hs with hc
    obtain ⟨t, ms, ht, hchain, rfl⟩ := h.readMembers hs
    exact ⟨b, _, hb, ⟨ms, ht, hchain⟩, by rw [hc]; rfl⟩

/-! ## Whole texts -/

/-- A text that is accepted holds what its reader takes, and nothing else but blanks. -/
theorem Takes.document {value : Nat → Nat → Reader α} {P : List Char → α → Prop} {text : String}
    {a : α} (h : Takes (value text.toList.length maxDepth) P) (ha : document value text = .ok a) :
    ∃ b t b', Blanks b ∧ P t a ∧ Blanks b' ∧ text.toList = b ++ (t ++ b') := by
  unfold Json.document at ha
  cases halone : alone (value text.toList.length maxDepth) text.toList with
  | error fault =>
    simp only [halone] at ha
    cases ha
  | ok x =>
    simp only [halone] at ha
    cases ha
    obtain ⟨⟨y, r⟩, hvalue, hrest⟩ := bind_eq_ok.1 halone
    obtain ⟨b, t, hb, ht, htext⟩ := h _ _ _ hvalue
    dsimp only at hrest
    split at hrest
    · next hskip =>
      cases hrest
      obtain ⟨b', hb', hr⟩ := exists_blanks r
      rw [hskip, List.append_nil] at hr
      exact ⟨b, t, r, hb, ht, hr ▸ hb', htext⟩
    · cases hrest

end MusicCatalog.Json
