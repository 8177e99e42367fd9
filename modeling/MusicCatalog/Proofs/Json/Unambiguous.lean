import MusicCatalog.Proofs.Json.Accepted

/-!
# The grammar is unambiguous

Where a phrase ends is known from what may stand behind it: a run of digits goes as far as there are
digits, and everything else has an end of its own. So no text is two phrases.

* `Decided`: a text is known as the one of its production at the front of any text;
* `run_unique`: the longest run of characters of a kind;
* `decided_string`, `decided_number`: tokens;
* `decided_member`, `separated_unique`: members, and what stands between brackets;
* **`decided_value`**, **`Grammar.IsText.unique`**: values, and whole texts.
-/

namespace MusicCatalog.Json

open Grammar

variable {α : Type}

/-- At the front of a text, and with something behind it that `F` allows, no other text of the
production can stand in the place of `t`, and `t` is one phrase only. -/
def Decided (P : List Char → α → Prop) (F : List Char → Prop) (t : List Char) : Prop :=
  ∀ ⦃t' r r' : List Char⦄ ⦃x x' : α⦄, P t x → P t' x' → F r → F r' → t ++ r = t' ++ r' →
    t = t' ∧ x = x'

/-! ## Runs -/

/-- A run of characters of a kind ends at the first character of another kind. -/
theorem run_unique {p : Char → Bool} {ds ds' r r' : List Char} (hd : ∀ c ∈ ds, p c)
    (hd' : ∀ c ∈ ds', p c) (hr : ∀ c ∈ r.head?, p c = false) (hr' : ∀ c ∈ r'.head?, p c = false)
    (h : ds ++ r = ds' ++ r') : ds = ds' ∧ r = r' := by
  have hds : ds = ds' := by rw [← takeWhile_span hd hr, h, takeWhile_span hd' hr']
  subst hds
  exact ⟨rfl, List.append_cancel_left h⟩

/-! ## Strings -/

theorem hexDigit_unique {c : Char} {d d' : Nat} (h : IsHexDigit c d) (h' : IsHexDigit c d') :
    d = d' := by
  have hvalue := hexValue?_eq_some.2 h
  rw [hexValue?_eq_some.2 h'] at hvalue
  exact (Option.some.inj hvalue).symm

theorem shortEscape_unique {l c c' : Char} (h : (l, c) ∈ shortEscapes) (h' : (l, c') ∈ shortEscapes) :
    c = c' := by
  have hvalue := shortEscape?_eq_some.2 h
  rw [shortEscape?_eq_some.2 h'] at hvalue
  exact (Option.some.inj hvalue).symm

theorem u_not_shortEscape {c : Char} : ('u', c) ∉ shortEscapes := by
  rw [← shortEscape?_eq_some]
  nofun

theorem decided_glyph (t : List Char) : Decided IsGlyph (fun _ => True) t := by
  intro t' r r' g g' h h' _ _ heq
  cases h <;> cases h' <;> grind [hexDigit_unique, shortEscape_unique, u_not_shortEscape]

/-- No character of a string begins with the quote that ends it. -/
theorem front_glyph {t : List Char} {g : Glyph} (h : IsGlyph t g) (r : List Char) :
    (t ++ r).head? ≠ some '"' := by
  cases h with
  | unescaped _ hq _ => simpa using hq
  | escaped | coded => simp

theorem glyphs_unique {s s' r r' : List Char} {gs gs' : List Glyph} (h : IsGlyphs s gs)
    (h' : IsGlyphs s' gs') (heq : s ++ '"' :: r = s' ++ '"' :: r') : s = s' ∧ gs = gs' := by
  induction h generalizing s' gs' with
  | nil =>
    cases h' with
    | nil => exact ⟨rfl, rfl⟩
    | @cons t _ _ _ ht _ =>
      rw [List.append_assoc] at heq
      exact absurd (congrArg List.head? heq.symm) (front_glyph ht _)
  | @cons t s g gs ht _ ih =>
    cases h' with
    | nil =>
      rw [List.append_assoc] at heq
      exact absurd (congrArg List.head? heq) (front_glyph ht _)
    | @cons t' s' g' gs' ht' hs' =>
      rw [List.append_assoc, List.append_assoc] at heq
      obtain ⟨rfl, rfl⟩ := decided_glyph t ht ht' trivial trivial heq
      obtain ⟨rfl, rfl⟩ := ih hs' (List.append_cancel_left heq)
      exact ⟨rfl, rfl⟩

theorem decided_string (t : List Char) : Decided IsString (fun _ => True) t := by
  rintro t' r r' gs gs' ⟨h⟩ ⟨h'⟩ _ _ heq
  simp only [List.cons_append, List.append_assoc, List.cons.injEq, true_and, List.nil_append] at heq
  obtain ⟨rfl, rfl⟩ := glyphs_unique h h' heq
  exact ⟨rfl, rfl⟩

/-! ## Numerals -/

theorem digits_unique {ds ds' r r' : List Char} (h : IsDigits ds) (h' : IsDigits ds')
    (hr : EndsDigits r) (hr' : EndsDigits r') (heq : ds ++ r = ds' ++ r') : ds = ds' ∧ r = r' :=
  run_unique h.2 h'.2 hr hr' heq

theorem front_digits {ds : List Char} (h : IsDigits ds) :
    ∃ c u, ds = c :: u ∧ c ≠ '+' ∧ c ≠ '-' := by
  obtain ⟨c, u, rfl⟩ := List.exists_cons_of_ne_nil h.1
  have hc := h.2 c List.mem_cons_self
  refine ⟨c, u, rfl, ?_, ?_⟩ <;> rintro rfl <;> revert hc <;> decide

theorem decided_exponent (t : List Char) : Decided IsExponent Apart t := by
  intro t' r r' x x' h h' hr hr' heq
  have hends : EndsDigits r := fun c hc => (hr c hc).1
  have hends' : EndsDigits r' := fun c hc => (hr' c hc).1
  cases h <;> cases h' <;> grind [Apart, digits_unique, front_digits]

theorem decided_fraction (t : List Char) :
    Decided IsFraction (fun r => EndsDigits r ∧ r.head? ≠ some '.') t := by
  intro t' r r' x x' h h' hr hr' heq
  cases h <;> cases h' <;> grind [digits_unique]

theorem front_exponent {e r : List Char} {x : Option (Bool × List Char)} (h : IsExponent e x)
    (hr : Apart r) : (e ++ r).head? ≠ some '.' := by
  cases h with
  | absent => exact fun hdot => (hr '.' hdot).2.1 rfl
  | bare he | plus he | minus he => rcases he with rfl | rfl <;> simp

theorem unsigned_unique {t t' r r' : List Char} {n n' : Numeral} (h : IsUnsigned t n)
    (h' : IsUnsigned t' n') (hsign : n.negative = n'.negative) (hr : Apart r) (hr' : Apart r')
    (heq : t ++ r = t' ++ r') : t = t' ∧ n = n' := by
  obtain ⟨hw, hf, he⟩ := h
  obtain ⟨hw', hf', he'⟩ := h'
  have hends := he.endsDigits fun c hc => (hr c hc).1
  have hends' := he'.endsDigits fun c hc => (hr' c hc).1
  simp only [List.append_assoc] at heq
  obtain ⟨rfl, hbehind⟩ :=
    digits_unique hw.1 hw'.1 (hf.endsDigits hends) (hf'.endsDigits hends') heq
  obtain ⟨rfl, rfl⟩ := decided_fraction _ hf hf' ⟨hends, front_exponent he hr⟩
    ⟨hends', front_exponent he' hr'⟩ hbehind
  obtain ⟨rfl, rfl⟩ := decided_exponent _ he he' hr hr' (List.append_cancel_left hbehind)
  obtain rfl := hsign
  exact ⟨rfl, rfl⟩

theorem decided_number (t : List Char) : Decided IsNumber Apart t := by
  intro t' r r' n n' h h' hr hr' heq
  cases h with
  | unsigned hn hsign =>
    cases h' with
    | unsigned hn' hsign' => exact unsigned_unique hn hn' (hsign.trans hsign'.symm) hr hr' heq
    | minus hn' hsign' =>
      obtain ⟨c, u, rfl, hc⟩ := exists_digit hn
      obtain ⟨rfl, -⟩ := List.cons.inj heq
      exact absurd hc (by decide)
  | minus hn hsign =>
    cases h' with
    | unsigned hn' hsign' =>
      obtain ⟨c, u, rfl, hc⟩ := exists_digit hn'
      obtain ⟨rfl, -⟩ := List.cons.inj heq
      exact absurd hc (by decide)
    | minus hn' hsign' =>
      obtain ⟨-, hbehind⟩ := List.cons.inj heq
      obtain ⟨rfl, rfl⟩ := unsigned_unique hn hn' (hsign.trans hsign'.symm) hr hr' hbehind
      exact ⟨rfl, rfl⟩

/-! ## Lists and objects -/

/-- The text does not begin with a blank. -/
def EndsBlanks (r : List Char) : Prop := ∀ c ∈ r.head?, isBlank c = false

theorem endsBlanks_cons {c : Char} {r : List Char} (h : isBlank c = false) : EndsBlanks (c :: r) := by
  intro d hd
  cases hd
  exact h

theorem Solid.endsBlanks {t : List Char} (h : Solid t) (r : List Char) : EndsBlanks (t ++ r) := by
  obtain ⟨c, u, rfl, hc, -⟩ := h
  exact endsBlanks_cons hc

theorem blanks_unique {b b' r r' : List Char} (h : Blanks b) (h' : Blanks b') (hr : EndsBlanks r)
    (hr' : EndsBlanks r') (heq : b ++ r = b' ++ r') : b = b' ∧ r = r' :=
  run_unique h h' hr hr' heq

theorem decided_member {V : List Char → Phrase → Prop} {m : List Char}
    (hsolid : ∀ ⦃t x⦄, V t x → Solid t) (hV : ∀ t, t.length < m.length → Decided V Apart t) :
    Decided (IsMember V) Apart m := by
  intro m' r r' _ _ h h' hr hr' heq
  obtain ⟨hk, hb, hc, ht⟩ := h
  obtain ⟨hk', hb', hc', ht'⟩ := h'
  have hcolon : ∀ u : List Char, EndsBlanks (':' :: u) := fun u => endsBlanks_cons (by decide)
  simp only [List.append_assoc, List.cons_append] at heq
  obtain ⟨rfl, rfl⟩ := decided_string _ hk hk' trivial trivial heq
  obtain ⟨rfl, hvalue⟩ := blanks_unique hb hb' (hcolon _) (hcolon _) (List.append_cancel_left heq)
  obtain ⟨rfl, hvalue'⟩ := blanks_unique hc hc' ((hsolid ht).endsBlanks r)
    ((hsolid ht').endsBlanks r') (List.cons.inj hvalue).2
  obtain ⟨rfl, rfl⟩ := hV _ (by simp only [List.length_append, List.length_cons]; omega)
    ht ht' hr hr' hvalue'
  exact ⟨rfl, rfl⟩

section Separated

variable {P : List Char → α → Prop} {close : Char} (hclose : close = ']' ∨ close = '}')

/-- Separated items begin with the first one, and behind this stand blanks and then nothing, or a
comma and further items. -/
theorem Separated.exists_item {t : List Char} {ts : List (List Char)} {s : List Char}
    (h : Separated (t :: ts) s) :
    ∃ b b' u, Blanks b ∧ Blanks b' ∧ s = b ++ (t ++ (b' ++ u)) ∧
      (u = [] ∧ ts = [] ∨ ∃ s', u = ',' :: s' ∧ Separated ts s') := by
  cases ts with
  | nil =>
    obtain ⟨b, b', hb, hb', rfl⟩ := h
    exact ⟨b, b', [], hb, hb', by simp, .inl ⟨rfl, rfl⟩⟩
  | cons t' ts =>
    obtain ⟨b, b', s', hb, hb', hs', rfl⟩ := h
    exact ⟨b, b', _, hb, hb', rfl, .inr ⟨s', rfl, hs'⟩⟩

include hclose

theorem front_behind {Q : List Char → Prop} {u : List Char}
    (hu : u = [] ∨ ∃ s', u = ',' :: s' ∧ Q s') (r : List Char) :
    EndsBlanks (u ++ close :: r) ∧ Apart (u ++ close :: r) := by
  have hfront : ∀ (c : Char) v, c = ']' ∨ c = '}' ∨ c = ',' → EndsBlanks (c :: v) ∧ Apart (c :: v) := by
    rintro c v (rfl | rfl | rfl) <;> exact ⟨endsBlanks_cons (by decide), apart_cons (by decide)⟩
  rcases hu with rfl | ⟨s', rfl, -⟩
  · exact hfront close r (hclose.imp_right .inl)
  · exact hfront ',' _ (.inr (.inr rfl))

/-- **Separated items** are known from the closing bracket behind them. -/
theorem separated_unique {ts ts' : List (List Char)} {xs xs' : List α} {s s' r r' : List Char}
    (hfront : ∀ ⦃t x⦄, P t x → ∃ c u, t = c :: u ∧ isBlank c = false ∧ c ≠ close)
    (hP : ∀ t ∈ ts, Decided P Apart t) (h : List.Forall₂ P ts xs) (h' : List.Forall₂ P ts' xs')
    (hs : Separated ts s) (hs' : Separated ts' s') (heq : s ++ close :: r = s' ++ close :: r') :
    s = s' ∧ xs = xs' := by
  have hend := fun r => (front_behind hclose (Q := fun _ => True) (.inl rfl) r).1
  have hitem : ∀ {t x v}, P t x → EndsBlanks (t ++ v) := by
    intro t x v ht
    obtain ⟨c, u, rfl, hc, -⟩ := hfront ht
    exact endsBlanks_cons hc
  -- an item cannot begin where the bracket stands
  have hdiffer : ∀ {t x v r}, P t x → t ++ v ≠ close :: r := by
    intro t x v r ht heq
    obtain ⟨c, u, rfl, -, hc⟩ := hfront ht
    exact hc (List.cons.inj heq).1
  have hcomma : close ≠ ',' := by rcases hclose with rfl | rfl <;> decide
  induction h generalizing ts' xs' s s' with
  | nil =>
    cases h' with
    | nil =>
      obtain ⟨rfl, -⟩ := blanks_unique hs hs' (hend r) (hend r') heq
      exact ⟨rfl, rfl⟩
    | cons ht' _ =>
      obtain ⟨b, b', u, hb, -, rfl, -⟩ := hs'.exists_item
      simp only [List.append_assoc] at heq
      obtain ⟨-, hbehind⟩ := blanks_unique hs hb (hend r) (hitem ht') heq
      exact absurd hbehind.symm (hdiffer ht')
  | cons ht hts ih =>
    obtain ⟨b, b₁, u, hb, hb₁, rfl, hu⟩ := hs.exists_item
    cases h' with
    | nil =>
      simp only [List.append_assoc] at heq
      obtain ⟨-, hbehind⟩ := blanks_unique hb hs' (hitem ht) (hend r') heq
      exact absurd hbehind (hdiffer ht)
    | cons ht' hts' =>
      obtain ⟨b', b₁', u', hb', hb₁', rfl, hu'⟩ := hs'.exists_item
      have hbehind := front_behind hclose (hu.imp_left And.left) r
      have hbehind' := front_behind hclose (hu'.imp_left And.left) r'
      simp only [List.append_assoc] at heq
      obtain ⟨rfl, hrest⟩ := blanks_unique hb hb' (hitem ht) (hitem ht') heq
      obtain ⟨rfl, rfl⟩ := hP _ List.mem_cons_self ht ht' (.blanks_append hb₁ hbehind.2)
        (.blanks_append hb₁' hbehind'.2) hrest
      obtain ⟨rfl, hrest'⟩ := blanks_unique hb₁ hb₁' hbehind.1 hbehind'.1
        (List.append_cancel_left hrest)
      rcases hu with ⟨rfl, rfl⟩ | ⟨s₁, rfl, hs₁⟩ <;> rcases hu' with ⟨rfl, rfl⟩ | ⟨s₂, rfl, hs₂⟩
      · cases hts
        cases hts'
        exact ⟨rfl, rfl⟩
      · exact absurd (List.cons.inj hrest').1 hcomma
      · exact absurd (List.cons.inj hrest').1.symm hcomma
      · obtain ⟨rfl, rfl⟩ := ih (fun t ht => hP t (List.mem_cons_of_mem _ ht)) hts' hs₁ hs₂
          (List.cons.inj hrest').2
        exact ⟨rfl, rfl⟩

end Separated

/-! ## Values -/

theorem exists_quote {t : List Char} {gs : List Glyph} (h : IsString t gs) : ∃ u, t = '"' :: u := by
  obtain ⟨h⟩ := h
  exact ⟨_, rfl⟩

theorem front_number {t : List Char} {n : Numeral} (h : IsNumber t n) :
    ∃ c u, t = c :: u ∧ c ≠ 'n' ∧ c ≠ 't' ∧ c ≠ 'f' ∧ c ≠ '"' ∧ c ≠ '[' ∧ c ≠ '{' := by
  obtain ⟨c, u, rfl, hc⟩ := exists_numeral h
  refine ⟨c, u, rfl, ?_, ?_, ?_, ?_, ?_, ?_⟩ <;> rintro rfl <;> revert hc <;> decide

/-- **A value** ends where its text says, and the text is one value only. -/
theorem decided_value (t : List Char) : Decided IsValue Apart t := by
  induction hn : t.length using Nat.strong_induction_on generalizing t with
  | _ n ih =>
    subst hn
    have hshorter : ∀ u : List Char, u.length < t.length → Decided IsValue Apart u :=
      fun u hu => ih u.length hu u rfl
    intro t' r r' x x' h h' hr hr' heq
    cases h <;> cases h'
    case number.number _ hx _ hx' =>
      obtain ⟨rfl, rfl⟩ := decided_number _ hx hx' hr hr' heq
      exact ⟨rfl, rfl⟩
    case string.string _ hx _ hx' =>
      obtain ⟨rfl, rfl⟩ := decided_string _ hx hx' trivial trivial heq
      exact ⟨rfl, rfl⟩
    case list.list s ts xs hs hx s' ts' xs' hs' hx' =>
      have hfront : ∀ ⦃t x⦄, IsValue t x → ∃ c u, t = c :: u ∧ isBlank c = false ∧ c ≠ ']' :=
        fun _ _ ht => ht.solid
      have hitems : ∀ u ∈ ts, Decided IsValue Apart u := fun u hu => hshorter u (by
        have := hs.length_le_of_mem hu
        simp only [List.length_cons, List.length_append]
        omega)
      simp only [List.cons_append, List.append_assoc, List.nil_append] at heq
      obtain ⟨rfl, rfl⟩ := separated_unique (.inl rfl) hfront hitems hx hx' hs hs'
        (List.cons.inj heq).2
      exact ⟨rfl, rfl⟩
    case object.object s ts ms hs hx s' ts' ms' hs' hx' =>
      have hfront : ∀ ⦃t m⦄, IsMember IsValue t m →
          ∃ c u, t = c :: u ∧ isBlank c = false ∧ c ≠ '}' := by
        intro t m hm
        obtain ⟨hk, -, -, -⟩ := hm
        obtain ⟨u, rfl⟩ := exists_quote hk
        exact ⟨_, _, rfl, by decide, by decide⟩
      have hmembers : ∀ u ∈ ts, Decided (IsMember IsValue) Apart u := by
        intro u hu
        have hlength := hs.length_le_of_mem hu
        refine decided_member (fun _ _ ht => ht.solid) fun v hv => hshorter v ?_
        simp only [List.length_cons, List.length_append]
        omega
      simp only [List.cons_append, List.append_assoc, List.nil_append] at heq
      obtain ⟨rfl, rfl⟩ := separated_unique (.inr rfl) hfront hmembers hx hx' hs hs'
        (List.cons.inj heq).2
      exact ⟨rfl, rfl⟩
    -- two values of different kinds have different first characters
    all_goals clear ih hshorter; grind [front_number, exists_quote]

theorem Grammar.IsText.parts {s : List Char} {x : Phrase} (h : IsText s x) :
    ∃ b t b', Blanks b ∧ IsValue t x ∧ Blanks b' ∧ s = b ++ (t ++ b') := by
  obtain ⟨hb, ht, hb'⟩ := h
  exact ⟨_, _, _, hb, ht, hb', rfl⟩

/-- A value is a text without blanks around it. -/
theorem Grammar.IsValue.isText {t : List Char} {x : Phrase} (h : IsValue t x) :
    IsText (String.ofList t).toList x := by
  have htext := IsText.mk blanks_nil h blanks_nil
  rwa [List.nil_append, List.append_nil, ← String.toList_ofList (l := t)] at htext

/-- **No text is two phrases.** -/
theorem Grammar.IsText.unique {s : List Char} {x y : Phrase} (hx : IsText s x) (hy : IsText s y) :
    x = y := by
  obtain ⟨b, t, b', hb, ht, hb', rfl⟩ := hx.parts
  obtain ⟨c, u, c', hc, hu, hc', heq⟩ := hy.parts
  obtain ⟨-, hvalue⟩ := blanks_unique hb hc (ht.solid.endsBlanks b') (hu.solid.endsBlanks c') heq
  have hapart : ∀ {b}, Blanks b → Apart b := fun hb => by simpa using apart_nil.blanks_append hb
  exact (decided_value t ht hu (hapart hb') (hapart hc') hvalue).2

end MusicCatalog.Json
