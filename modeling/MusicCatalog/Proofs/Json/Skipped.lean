import MusicCatalog.Json.Skip
import MusicCatalog.Proofs.Json.Unambiguous

/-!
# Values that are passed over

The scanner that passes over a value knows neither its depth nor its meaning, so it has to agree with
the grammar on where the value ends. It passes exactly one value of the grammar, whatever that means
or does not mean, and nothing else.

* `skipString_eq_ok`: strings, with surrogates in any order;
* `skipNumeral_unsigned`, `exists_unsigned_of_skip`: numerals of any size;
* **`skips_value`**: every value of the grammar is passed, and what stands behind it is left;
* **`exists_value_of_skip`**: what is passed was a value of the grammar.
-/

namespace MusicCatalog.Json

open Grammar

variable {s rest : List Char}

/-! ## Strings -/

theorem skipString_backslash {r : List Char} (h : skipEscape r = .ok rest) :
    skipString ('\\' :: r) = skipString rest := by
  rw [skipString]
  simp only [Char.reduceEq, ↓reduceIte]
  split
  · next fault hf =>
    rw [h] at hf
    cases hf
  · next rest' hr =>
    rw [h] at hr
    cases hr
    rfl

/-- An escape is passed from behind its backslash to its end. -/
theorem skipEscape_eq_ok :
    skipEscape s = .ok rest ↔ ∃ t g, IsGlyph ('\\' :: t) g ∧ s = t ++ rest := by
  constructor
  · intro h
    unfold skipEscape at h
    split at h
    · cases h
    · next l r =>
      split_ifs at h with hshort hu
      · cases h
        obtain ⟨c, hc⟩ := Option.isSome_iff_exists.1 hshort
        exact ⟨[l], _, .escaped (shortEscape?_eq_some.1 hc), rfl⟩
      · obtain ⟨⟨n, r'⟩, hn, h⟩ := bind_eq_ok.1 h
        cases h
        obtain ⟨t, ht, rfl⟩ := codeUnit_eq_ok.1 hn
        exact ⟨l :: t, _, hu ▸ ht, rfl⟩
  · rintro ⟨t, g, h, rfl⟩
    cases h with
    | unescaped _ _ hb => exact absurd rfl hb
    | escaped h =>
      rw [List.cons_append, skipEscape, shortEscape?_eq_some.2 h]
      rfl
    | coded ha hb hc hd =>
      obtain ⟨u, hu, hunit⟩ := exists_unit (.coded ha hb hc hd)
      obtain ⟨-, -, rfl⟩ := hu
      change (codeUnit (_ ++ rest) >>= fun p => Except.ok p.2) = _
      rw [hunit rest]
      rfl

theorem skipString_glyph {t : List Char} {g : Glyph} (h : IsGlyph t g) (r : List Char) :
    skipString (t ++ r) = skipString r := by
  cases h with
  | unescaped hc hq hb =>
    rw [List.cons_append, skipString, if_neg hq, if_neg hb, if_neg (Nat.not_lt.2 hc), List.nil_append]
  | escaped h => exact skipString_backslash (skipEscape_eq_ok.2 ⟨_, _, .escaped h, rfl⟩)
  | coded ha hb hc hd =>
    exact skipString_backslash (skipEscape_eq_ok.2 ⟨_, _, .coded ha hb hc hd, rfl⟩)

/-- **A string is passed** from behind its opening quote to its closing one. -/
theorem skipString_eq_ok :
    skipString s = .ok rest ↔ ∃ t gs, IsGlyphs t gs ∧ s = t ++ '"' :: rest := by
  constructor
  · intro h
    fun_induction skipString s with
    | case1 => cases h
    | case2 r =>
      cases h
      exact ⟨[], [], .nil, rfl⟩
    | case3 => cases h
    | case4 r r' hescape _ _ ih =>
      obtain ⟨u, g, hu, rfl⟩ := skipEscape_eq_ok.1 hescape
      obtain ⟨t, gs, ht, rfl⟩ := ih h
      exact ⟨_, _, .cons hu ht, by simp⟩
    | case5 => cases h
    | case6 c r hq hb hc ih =>
      obtain ⟨t, gs, ht, rfl⟩ := ih h
      exact ⟨_, _, .cons (.unescaped (Nat.not_lt.1 hc) hq hb) ht, rfl⟩
  · rintro ⟨t, gs, h, rfl⟩
    induction h with
    | nil =>
      rw [List.nil_append, skipString]
      rfl
    | cons ht _ ih => rw [List.append_assoc, skipString_glyph ht, ih]

/-! ## Numerals -/

/-- Passes some digits, and not none. -/
def skipDigits : List Char → Except Fault (List Char)
  | [] => .error (.here .invalidNumber [])
  | c :: r =>
    if c.isDigit then .ok (r.dropWhile Char.isDigit) else .error (.ahead .invalidNumber (c :: r))

theorem skipDigits_span {ds : List Char} (h : IsDigits ds) (hr : EndsDigits rest) :
    skipDigits (ds ++ rest) = .ok rest := by
  obtain ⟨c, cs, rfl⟩ := List.exists_cons_of_ne_nil h.1
  obtain ⟨hc, hcs⟩ := List.forall_mem_cons.1 h.2
  rw [List.cons_append, skipDigits, if_pos hc, dropWhile_span hcs hr]

theorem exists_digits_of_skip (h : skipDigits s = .ok rest) :
    ∃ ds, IsDigits ds ∧ EndsDigits rest ∧ s = ds ++ rest := by
  cases s with
  | nil => cases h
  | cons c s =>
    rw [skipDigits] at h
    split_ifs at h with hc
    cases h
    obtain ⟨ds, r, rfl, hds, hr⟩ := exists_span s
    rw [dropWhile_span hds hr]
    exact ⟨c :: ds, ⟨List.cons_ne_nil c ds, List.forall_mem_cons.2 ⟨hc, hds⟩⟩, hr, rfl⟩

theorem skipExponent_sign {c : Char} (hc : c = '+' ∨ c = '-') (s : List Char) :
    skipExponent (c :: s) = skipDigits s := by
  rw [skipExponent, if_pos hc]
  cases s <;> rfl

theorem skipExponent_bare {c : Char} (hc : ¬ (c = '+' ∨ c = '-')) (s : List Char) :
    skipExponent (c :: s) = skipDigits (c :: s) := by
  rw [skipExponent, if_neg hc]
  rfl

theorem skipExponent_span {letter : Char} {u : List Char} {exponent : Bool × List Char}
    (h : IsExponent (letter :: u) (some exponent)) (hr : EndsDigits rest) :
    skipExponent (u ++ rest) = .ok rest := by
  cases h with
  | bare _ hds =>
    rw [← skipDigits_span hds hr]
    obtain ⟨c, cs, rfl⟩ := List.exists_cons_of_ne_nil hds.1
    have hc := hds.2 c List.mem_cons_self
    refine skipExponent_bare ?_ _
    rintro (rfl | rfl) <;> revert hc <;> decide
  | plus _ hds => exact (skipExponent_sign (.inl rfl) _).trans (skipDigits_span hds hr)
  | minus _ hds => exact (skipExponent_sign (.inr rfl) _).trans (skipDigits_span hds hr)

theorem exists_exponent_of_skip {letter : Char} (hletter : letter = 'e' ∨ letter = 'E')
    (h : skipExponent s = .ok rest) :
    ∃ u x, IsExponent (letter :: u) (some x) ∧ s = u ++ rest := by
  cases s with
  | nil => cases h
  | cons c s =>
    by_cases hc : c = '+' ∨ c = '-'
    · rw [skipExponent_sign hc] at h
      obtain ⟨ds, hds, -, rfl⟩ := exists_digits_of_skip h
      rcases hc with rfl | rfl
      · exact ⟨_, _, .plus hletter hds, rfl⟩
      · exact ⟨_, _, .minus hletter hds, rfl⟩
    · rw [skipExponent_bare hc] at h
      obtain ⟨ds, hds, -, hs⟩ := exists_digits_of_skip h
      rw [hs]
      exact ⟨_, _, .bare hletter hds, rfl⟩

theorem skipFractionEnd_span {e : List Char} {exponent : Option (Bool × List Char)}
    (h : IsExponent e exponent) (hr : Apart rest) : skipFractionEnd (e ++ rest) = .ok rest := by
  cases exponent with
  | none =>
    cases h
    cases rest with
    | nil => rfl
    | cons c r =>
      obtain ⟨-, -, he, hE⟩ := hr c rfl
      rw [List.nil_append, skipFractionEnd, if_neg (by simp [he, hE])]
  | some x =>
    obtain ⟨letter, u, rfl, hletter⟩ := h.exists_letter
    rw [List.cons_append, skipFractionEnd, if_pos hletter]
    exact skipExponent_span h fun c hc => (hr c hc).1

theorem exists_fractionEnd_of_skip (h : skipFractionEnd s = .ok rest) :
    ∃ e x, IsExponent e x ∧ s = e ++ rest := by
  cases s with
  | nil =>
    cases h
    exact ⟨[], none, .absent, rfl⟩
  | cons c s =>
    rw [skipFractionEnd] at h
    split_ifs at h with hc
    · obtain ⟨u, x, hu, rfl⟩ := exists_exponent_of_skip hc h
      exact ⟨_, _, hu, rfl⟩
    · cases h
      exact ⟨[], none, .absent, rfl⟩

theorem skipAfterWhole_point (s : List Char) :
    skipAfterWhole ('.' :: s) = skipDigits s >>= skipFractionEnd := by
  cases s with
  | nil => rfl
  | cons c s =>
    change (if c.isDigit then skipFractionEnd _ else _) = skipDigits (c :: s) >>= skipFractionEnd
    rw [skipDigits]
    split_ifs <;> rfl

theorem skipAfterWhole_end (h : s.head? ≠ some '.') : skipAfterWhole s = skipFractionEnd s := by
  cases s with
  | nil => rfl
  | cons c s =>
    rw [skipAfterWhole.eq_def]
    exact if_neg fun hc => h (congrArg some hc)

theorem skipAfterWhole_span {f e : List Char} {fraction : Option (List Char)}
    {exponent : Option (Bool × List Char)} (hf : IsFraction f fraction) (he : IsExponent e exponent)
    (hr : Apart rest) : skipAfterWhole (f ++ (e ++ rest)) = .ok rest := by
  cases hf with
  | absent =>
    rw [List.nil_append, skipAfterWhole_end (front_exponent he hr)]
    exact skipFractionEnd_span he hr
  | present hds =>
    have hends := he.endsDigits fun c hc => (hr c hc).1
    rw [List.cons_append, skipAfterWhole_point, skipDigits_span hds hends]
    exact skipFractionEnd_span he hr

theorem exists_afterWhole_of_skip (h : skipAfterWhole s = .ok rest) :
    ∃ f e fraction exponent, IsFraction f fraction ∧ IsExponent e exponent ∧
      s = f ++ (e ++ rest) := by
  by_cases hpoint : s.head? = some '.'
  · obtain ⟨s, rfl⟩ := List.head?_eq_some_iff.1 hpoint
    rw [skipAfterWhole_point] at h
    obtain ⟨r, hdigits, hend⟩ := bind_eq_ok.1 h
    obtain ⟨ds, hds, -, rfl⟩ := exists_digits_of_skip hdigits
    obtain ⟨e, x, he, rfl⟩ := exists_fractionEnd_of_skip hend
    exact ⟨_, e, _, x, .present hds, he, rfl⟩
  · rw [skipAfterWhole_end hpoint] at h
    obtain ⟨e, x, he, rfl⟩ := exists_fractionEnd_of_skip h
    exact ⟨[], e, none, x, .absent, he, rfl⟩

/-- The digits before the point, passed as one zero or as a run that begins with another digit. -/
theorem skipNumeral_span {whole : List Char} (hw : IsWhole whole) (hr : EndsDigits rest) :
    skipNumeral (whole ++ rest) = skipAfterWhole rest := by
  obtain ⟨c, cs, rfl⟩ := List.exists_cons_of_ne_nil hw.1.1
  obtain ⟨hc, hcs⟩ := List.forall_mem_cons.1 hw.1.2
  by_cases hzero : c = '0'
  · obtain rfl : cs = [] := by simpa [hzero] using hw.2
    subst hzero
    cases rest with
    | nil => rfl
    | cons d r =>
      have hd := hr d rfl
      change (if d.isDigit then _ else skipAfterWhole (d :: r)) = _
      rw [hd]
      rfl
  · rw [List.cons_append, skipNumeral.eq_def]
    simp only [hzero, hc, ↓reduceIte, dropWhile_span hcs hr]

theorem exists_whole_of_skip (h : skipNumeral s = .ok rest) :
    ∃ whole r, IsWhole whole ∧ s = whole ++ r ∧ skipAfterWhole r = .ok rest := by
  cases s with
  | nil => cases h
  | cons c s =>
    by_cases hzero : c = '0'
    · subst hzero
      refine ⟨['0'], s, ⟨⟨List.cons_ne_nil _ _, List.forall_mem_singleton.2 rfl⟩, fun _ => rfl⟩, rfl, ?_⟩
      cases s with
      | nil => exact h
      | cons d s =>
        change (if d.isDigit then _ else skipAfterWhole (d :: s)) = _ at h
        split_ifs at h
        exact h
    · by_cases hc : c.isDigit
      · obtain ⟨ds, r, hs, hds, hr, hhead⟩ := exists_digits hc s
        have hw : IsWhole ds := ⟨hds, fun h0 => absurd (Option.some.inj (hhead.symm.trans h0)) hzero⟩
        rw [hs, skipNumeral_span hw hr] at h
        exact ⟨ds, r, hw, hs, h⟩
      · rw [skipNumeral.eq_def] at h
        simp only [hzero, hc, ↓reduceIte, Bool.false_eq_true] at h
        cases h

/-- **A numeral is passed**, from behind its sign. -/
theorem skipNumeral_unsigned {t : List Char} {x : Numeral} (h : IsUnsigned t x) (hr : Apart rest) :
    skipNumeral (t ++ rest) = .ok rest := by
  obtain ⟨hw, hf, he⟩ := h
  have hends := hf.endsDigits (he.endsDigits fun c hc => (hr c hc).1)
  rw [List.append_assoc, List.append_assoc, skipNumeral_span hw hends]
  exact skipAfterWhole_span hf he hr

theorem exists_unsigned_of_skip (negative : Bool) (h : skipNumeral s = .ok rest) :
    ∃ t x, IsUnsigned t x ∧ x.negative = negative ∧ s = t ++ rest := by
  obtain ⟨whole, r, hw, rfl, hafter⟩ := exists_whole_of_skip h
  obtain ⟨f, e, fraction, exponent, hf, he, rfl⟩ := exists_afterWhole_of_skip hafter
  exact ⟨_, ⟨negative, whole, fraction, exponent⟩, .mk hw hf he, rfl, by
    rw [List.append_assoc, List.append_assoc]⟩

/-! ## Scalars -/

theorem skipScalar_digit {c : Char} (hc : c.isDigit) (r : List Char) :
    skipScalar (c :: r) = skipNumeral (c :: r) := by
  have hq : c ≠ '"' := by rintro rfl; revert hc; decide
  have hm : c ≠ '-' := by rintro rfl; revert hc; decide
  rw [skipScalar, if_neg hq, if_neg hm, if_pos hc]

theorem skipScalar_value {t : List Char} {x : Phrase} (h : IsValue t x)
    (hlist : ∀ items, x ≠ .list items) (hobject : ∀ members, x ≠ .object members) (hr : Apart rest) :
    skipScalar (t ++ rest) = .ok rest := by
  cases h with
  | null | yes | no => rfl
  | number hn =>
    cases hn with
    | unsigned hn =>
      obtain ⟨c, u, rfl, hc⟩ := exists_digit hn
      exact (skipScalar_digit hc _).trans (skipNumeral_unsigned hn hr)
    | minus hn => exact skipNumeral_unsigned hn hr
  | string hs =>
    obtain ⟨hgs⟩ := hs
    rw [List.cons_append, List.append_assoc, List.singleton_append]
    exact skipString_eq_ok.2 ⟨_, _, hgs, rfl⟩
  | list => exact absurd rfl (hlist _)
  | object => exact absurd rfl (hobject _)

theorem front_scalar {t : List Char} {x : Phrase} (h : IsValue t x)
    (hlist : ∀ items, x ≠ .list items) (hobject : ∀ members, x ≠ .object members) :
    ∃ c r, t = c :: r ∧ isBlank c = false ∧ c ≠ '[' ∧ c ≠ '{' := by
  cases h with
  | number hn =>
    obtain ⟨c, r, rfl, hc⟩ := exists_numeral hn
    obtain ⟨hblank, hopen, hbrace, -⟩ := front_numeral hc
    exact ⟨c, r, rfl, hblank, hopen, hbrace⟩
  | string hs =>
    obtain ⟨u, rfl⟩ := exists_quote hs
    exact ⟨_, _, rfl, by decide⟩
  | list => exact absurd rfl (hlist _)
  | object => exact absurd rfl (hobject _)
  | _ => exact ⟨_, _, rfl, by decide⟩

theorem exists_scalar_of_skip (h : skipScalar s = .ok rest) :
    ∃ t x, IsValue t x ∧ s = t ++ rest := by
  cases s with
  | nil => cases h
  | cons c s =>
    rw [skipScalar] at h
    split_ifs at h with hquote hminus hdigit hn ht hf
    · obtain ⟨t, gs, hgs, rfl⟩ := skipString_eq_ok.1 h
      exact ⟨_, _, .string (.mk hgs), by simp [hquote]⟩
    · obtain ⟨t, x, hx, hneg, rfl⟩ := exists_unsigned_of_skip true h
      exact ⟨_, _, .number (.minus hx hneg), by rw [hminus]; rfl⟩
    · obtain ⟨t, x, hx, hneg, hs⟩ := exists_unsigned_of_skip false h
      exact ⟨_, _, .number (.unsigned hx hneg), hs⟩
    · exact ⟨_, _, .null, by rw [hn, eq_append_of_word h]; rfl⟩
    · exact ⟨_, _, .yes, by rw [ht, eq_append_of_word h]; rfl⟩
    · exact ⟨_, _, .no, by rw [hf, eq_append_of_word h]; rfl⟩

/-! ## Lists and objects -/

/-- The value is passed behind blanks, and what stands behind it is left. Twice its length is budget
enough. -/
def Skips (t : List Char) : Prop :=
  ∀ n b rest, 2 * t.length ≤ n → Blanks b → Apart rest → skipValue n (b ++ (t ++ rest)) = .ok rest

theorem skipItems_separated {t : List Char} {ts : List (List Char)} (hitems : ∀ u ∈ t :: ts, Skips u)
    (h : Separated (t :: ts) s) {n : Nat} (hn : 2 * s.length + 1 ≤ n) (rest : List Char) :
    skipItems n (s ++ ']' :: rest) = .ok rest := by
  obtain ⟨n, rfl⟩ : ∃ k, n = k + 1 := ⟨n - 1, by omega⟩
  induction ts generalizing t s n with
  | nil =>
    obtain ⟨b, b', hb, hb', rfl⟩ := h
    simp only [List.length_append] at hn
    simp only [List.append_assoc]
    have hskip := hitems t List.mem_cons_self n b (b' ++ ']' :: rest) (by omega) hb
      (.blanks_append hb' (apart_cons (by decide)))
    rw [skipItems, hskip]
    change (match skipBlanks (b' ++ ']' :: rest) with | [] => _ | c :: r' => _) = _
    rw [skipBlanks_append hb', skipBlanks_cons (by decide)]
    rfl
  | cons t' ts ih =>
    obtain ⟨b, b', s', hb, hb', hs', rfl⟩ := h
    simp only [List.length_append, List.length_cons] at hn
    simp only [List.append_assoc, List.cons_append]
    have hskip := hitems t List.mem_cons_self n b (b' ++ ',' :: (s' ++ ']' :: rest)) (by omega) hb
      (.blanks_append hb' (apart_cons (by decide)))
    rw [skipItems, hskip]
    change (match skipBlanks (b' ++ ',' :: (s' ++ ']' :: rest)) with | [] => _ | c :: r' => _) = _
    rw [skipBlanks_append hb', skipBlanks_cons (by decide)]
    obtain ⟨n, rfl⟩ : ∃ k, n = k + 1 := ⟨n - 1, by omega⟩
    exact ih (fun u hu => hitems u (List.mem_cons_of_mem t hu)) hs' n (by omega)

/-- The member is passed if its value is. -/
def SkipsMember (m : List Char) : Prop :=
  ∃ k gs b b' t, IsString k gs ∧ Blanks b ∧ Blanks b' ∧ Skips t ∧ m = k ++ (b ++ ':' :: (b' ++ t))

/-- A member at the front of others, from its key to what stands behind its value. -/
theorem skipMembers_front {b m : List Char} (hb : Blanks b) (hm : SkipsMember m) {n : Nat}
    (hn : 2 * m.length ≤ n) (hr : Apart rest) :
    skipMembers (n + 1) (b ++ (m ++ rest)) =
      match skipBlanks rest with
      | [] => .error (.here .endInObject [])
      | d :: r' =>
        if d = ',' then skipMembers n r'
        else if d = '}' then .ok r'
        else .error (.ahead .expectedObjectEnd (d :: r')) := by
  obtain ⟨k, gs, b₁, b₂, t, ⟨hk⟩, hb₁, hb₂, ht, rfl⟩ := hm
  simp only [List.append_assoc, List.cons_append, List.length_append, List.length_cons,
    List.nil_append] at hn ⊢
  have hskip := ht n b₂ rest (by omega) hb₂ hr
  rw [skipMembers, skipBlanks_append hb, skipBlanks_cons (by decide)]
  change (skipString _ >>= fun afterKey => colon afterKey >>= fun value =>
    skipValue n value >>= fun rest => _) = _
  rw [skipString_eq_ok.2 ⟨_, gs, hk, rfl⟩]
  change (colon _ >>= fun value => skipValue n value >>= fun rest => _) = _
  rw [colon_append hb₁]
  change (skipValue n _ >>= fun rest => _) = _
  rw [hskip]
  rfl

theorem skipMembers_separated {m : List Char} {ms : List (List Char)}
    (hmembers : ∀ u ∈ m :: ms, SkipsMember u) (h : Separated (m :: ms) s) {n : Nat}
    (hn : 2 * s.length + 1 ≤ n) (rest : List Char) :
    skipMembers n (s ++ '}' :: rest) = .ok rest := by
  obtain ⟨n, rfl⟩ : ∃ k, n = k + 1 := ⟨n - 1, by omega⟩
  induction ms generalizing m s n with
  | nil =>
    obtain ⟨b, b', hb, hb', rfl⟩ := h
    simp only [List.length_append] at hn
    simp only [List.append_assoc]
    rw [skipMembers_front hb (hmembers m List.mem_cons_self) (by omega)
      (.blanks_append hb' (apart_cons (by decide))), skipBlanks_append hb',
      skipBlanks_cons (by decide)]
    rfl
  | cons m' ms ih =>
    obtain ⟨b, b', s', hb, hb', hs', rfl⟩ := h
    simp only [List.length_append, List.length_cons] at hn
    simp only [List.append_assoc, List.cons_append]
    rw [skipMembers_front hb (hmembers m List.mem_cons_self) (by omega)
      (.blanks_append hb' (apart_cons (by decide))), skipBlanks_append hb',
      skipBlanks_cons (by decide)]
    obtain ⟨n, rfl⟩ : ∃ k, n = k + 1 := ⟨n - 1, by omega⟩
    exact ih (fun u hu => hmembers u (List.mem_cons_of_mem m hu)) hs' n (by omega)

/-! ## Values -/

theorem skipValue_skipBlanks (n : Nat) (s : List Char) :
    skipValue (n + 1) (skipBlanks s) = skipValue (n + 1) s := by
  rw [skipValue, skipValue, skipBlanks_skipBlanks]

theorem skipItems_skipBlanks (n : Nat) (s : List Char) :
    skipItems (n + 2) (skipBlanks s) = skipItems (n + 2) s := by
  rw [skipItems, skipItems, skipValue_skipBlanks]

theorem skipMembers_skipBlanks (n : Nat) (s : List Char) :
    skipMembers (n + 1) (skipBlanks s) = skipMembers (n + 1) s := by
  rw [skipMembers, skipMembers, skipBlanks_skipBlanks]

theorem skips_list {ts : List (List Char)} (hitems : ∀ u ∈ ts, Skips u) (hsolid : ∀ u ∈ ts, Solid u)
    (h : Separated ts s) : Skips ('[' :: (s ++ [']'])) := by
  intro n b rest hn hb _
  simp only [List.length_cons, List.length_append, List.length_nil] at hn
  obtain ⟨n, rfl⟩ : ∃ k, n = k + 3 := ⟨n - 3, by omega⟩
  rw [List.cons_append, List.append_assoc, List.singleton_append, skipValue, skipBlanks_append hb,
    skipBlanks_cons (by decide)]
  change (match skipBlanks (s ++ ']' :: rest) with
    | [] => _ | d :: r' => if d = ']' then _ else skipItems (n + 2) (d :: r')) = _
  cases ts with
  | nil =>
    rw [skipBlanks_append h, skipBlanks_cons (by decide)]
    rfl
  | cons t ts =>
    obtain ⟨c, r, hskip, -, hc⟩ :=
      h.skipBlanks_cons (hsolid t List.mem_cons_self) (']' :: rest)
    rw [hskip]
    dsimp only
    rw [if_neg hc, ← hskip, skipItems_skipBlanks]
    exact skipItems_separated hitems h (by omega) rest

theorem skips_object {ms : List (List Char)} (hmembers : ∀ u ∈ ms, SkipsMember u)
    (h : Separated ms s) : Skips ('{' :: (s ++ ['}'])) := by
  intro n b rest hn hb _
  simp only [List.length_cons, List.length_append, List.length_nil] at hn
  obtain ⟨n, rfl⟩ : ∃ k, n = k + 2 := ⟨n - 2, by omega⟩
  rw [List.cons_append, List.append_assoc, List.singleton_append, skipValue, skipBlanks_append hb,
    skipBlanks_cons (by decide)]
  change (match skipBlanks (s ++ '}' :: rest) with
    | [] => _ | d :: r' => if d = '}' then _ else skipMembers (n + 1) (d :: r')) = _
  cases ms with
  | nil =>
    rw [skipBlanks_append h, skipBlanks_cons (by decide)]
    rfl
  | cons m ms =>
    obtain ⟨k, gs, b₁, b₂, t, ⟨hk⟩, -, -, -, hm⟩ := hmembers m List.mem_cons_self
    have hsolid : Solid m := ⟨'"', _, hm, by decide, by decide⟩
    obtain ⟨c, r, hskip, hhead, -⟩ := h.skipBlanks_cons hsolid ('}' :: rest)
    have hc : c ≠ '}' := by
      rw [hm] at hhead
      cases hhead
      decide
    rw [hskip]
    dsimp only
    rw [if_neg hc, ← hskip, skipMembers_skipBlanks]
    exact skipMembers_separated hmembers h (by omega) rest

theorem skips_scalar {t : List Char} {x : Phrase} (h : IsValue t x)
    (hlist : ∀ items, x ≠ .list items) (hobject : ∀ members, x ≠ .object members) : Skips t := by
  intro n b rest hn hb hr
  have hskip := skipScalar_value h hlist hobject hr
  obtain ⟨c, r, rfl, hc, hopen, hbrace⟩ := front_scalar h hlist hobject
  simp only [List.length_cons] at hn
  obtain ⟨n, rfl⟩ : ∃ k, n = k + 1 := ⟨n - 1, by omega⟩
  rw [skipValue, skipBlanks_append hb, List.cons_append, skipBlanks_cons hc]
  dsimp only
  rw [if_neg hopen, if_neg hbrace, ← hskip]
  rfl

/-- **Every value of the grammar is passed**, whether it means something or not. -/
theorem skips_value {t : List Char} {x : Phrase} (h : IsValue t x) : Skips t := by
  -- on the length of the text, which is greater than that of every item in it
  induction hn : t.length using Nat.strong_induction_on generalizing t x with
  | _ n ih =>
    subst hn
    cases h with
    | @list s ts xs hs hxs =>
      have hlength : ∀ u ∈ ts, u.length < ('[' :: (s ++ [']'])).length := fun u hu => by
        have := hs.length_le_of_mem hu
        simp only [List.length_cons, List.length_append]
        omega
      have hitems : List.Forall₂ (fun u y => (Skips u ∧ Solid u) ∧ IsValue u y) ts xs :=
        ((List.forall₂_and_left ts xs).2 ⟨hlength, hxs⟩).imp fun u y h =>
          ⟨⟨ih _ h.1 h.2 rfl, h.2.solid⟩, h.2⟩
      have hall := ((List.forall₂_and_left ts xs).1 hitems).1
      exact skips_list (fun u hu => (hall u hu).1) (fun u hu => (hall u hu).2) hs
    | @object s ts ms hs hms =>
      have hlength : ∀ u ∈ ts, u.length < ('{' :: (s ++ ['}'])).length := fun u hu => by
        have := hs.length_le_of_mem hu
        simp only [List.length_cons, List.length_append]
        omega
      have hmembers : List.Forall₂ (fun u m => SkipsMember u ∧ IsMember IsValue u m) ts ms := by
        refine ((List.forall₂_and_left ts ms).2 ⟨hlength, hms⟩).imp ?_
        rintro u m ⟨hlt, hm⟩
        refine ⟨?_, hm⟩
        obtain ⟨hk, hb, hb', hv⟩ := hm
        simp only [List.length_append, List.length_cons, List.length_nil] at hlt ih
        exact ⟨_, _, _, _, _, hk, hb, hb', ih _ (by omega) hv rfl, rfl⟩
      exact skips_object ((List.forall₂_and_left ts ms).1 hmembers).1 hs
    | null => exact skips_scalar .null nofun nofun
    | yes => exact skips_scalar .yes nofun nofun
    | no => exact skips_scalar .no nofun nofun
    | number hx => exact skips_scalar (.number hx) nofun nofun
    | string hx => exact skips_scalar (.string hx) nofun nofun

/-! ## What was passed -/

theorem Separated.blanks_append {b : List Char} {t : List Char} {ts : List (List Char)} (hb : Blanks b)
    (h : Separated (t :: ts) s) : Separated (t :: ts) (b ++ s) := by
  cases ts with
  | nil =>
    obtain ⟨b₁, b₂, hb₁, hb₂, rfl⟩ := h
    exact ⟨b ++ b₁, b₂, hb.append hb₁, hb₂, by rw [List.append_assoc]⟩
  | cons t' ts =>
    obtain ⟨b₁, b₂, s', hb₁, hb₂, hs', rfl⟩ := h
    exact ⟨b ++ b₁, b₂, s', hb.append hb₁, hb₂, hs', by rw [List.append_assoc]⟩

section Passed

variable {n : Nat}
  (hvalue : ∀ s rest, skipValue n s = .ok rest →
    ∃ b t x, Blanks b ∧ IsValue t x ∧ s = b ++ (t ++ rest))

include hvalue

theorem exists_items_of_skip
    (hitems : ∀ s rest, skipItems n s = .ok rest →
      ∃ t ts xs u, List.Forall₂ IsValue (t :: ts) xs ∧ Separated (t :: ts) u ∧ s = u ++ ']' :: rest)
    (h : skipItems (n + 1) s = .ok rest) :
    ∃ t ts xs u, List.Forall₂ IsValue (t :: ts) xs ∧ Separated (t :: ts) u ∧
      s = u ++ ']' :: rest := by
  rw [skipItems] at h
  obtain ⟨r, hv, hend⟩ := bind_eq_ok.1 h
  obtain ⟨b, t, x, hb, ht, rfl⟩ := hvalue _ _ hv
  split at hend
  · cases hend
  · next c r' hskip =>
    obtain ⟨b', hb', rfl⟩ := exists_front hskip
    split_ifs at hend with hcomma hclose
    · obtain ⟨t', ts, xs, u, hxs, hu, rfl⟩ := hitems _ _ hend
      exact ⟨t, t' :: ts, x :: xs, _, .cons ht hxs, ⟨b, b', u, hb, hb', hu, rfl⟩, by simp [hcomma]⟩
    · cases hend
      exact ⟨t, [], [x], _, .cons ht .nil, ⟨b, b', hb, hb', rfl⟩, by simp [hclose]⟩

theorem exists_members_of_skip
    (hmembers : ∀ s rest, skipMembers n s = .ok rest →
      ∃ t ts ms u, List.Forall₂ (IsMember IsValue) (t :: ts) ms ∧ Separated (t :: ts) u ∧
        s = u ++ '}' :: rest)
    (h : skipMembers (n + 1) s = .ok rest) :
    ∃ t ts ms u, List.Forall₂ (IsMember IsValue) (t :: ts) ms ∧ Separated (t :: ts) u ∧
      s = u ++ '}' :: rest := by
  rw [skipMembers] at h
  split at h
  · cases h
  · next c r hskip =>
    obtain ⟨b, hb, rfl⟩ := exists_front hskip
    split_ifs at h with hquote
    obtain ⟨afterKey, hkey, hmember⟩ := bind_eq_ok.1 h
    obtain ⟨value, hcolon, hvalues⟩ := bind_eq_ok.1 hmember
    obtain ⟨rest', hv, hend⟩ := bind_eq_ok.1 hvalues
    obtain ⟨k, gs, hk, rfl⟩ := skipString_eq_ok.1 hkey
    obtain ⟨b₁, hb₁, rfl⟩ := blanks_of_colon hcolon
    obtain ⟨b₂, t, x, hb₂, ht, rfl⟩ := hvalue _ _ hv
    have hm := IsMember.mk (.mk hk) hb₁ hb₂ ht
    split at hend
    · cases hend
    · next d r' hskip' =>
      obtain ⟨b', hb', rfl⟩ := exists_front hskip'
      split_ifs at hend with hcomma hclose
      · obtain ⟨m', ts, ms, u, hms, hu, rfl⟩ := hmembers _ _ hend
        exact ⟨_, m' :: ts, _, _, .cons hm hms, ⟨b, b', u, hb, hb', hu, rfl⟩,
          by simp [hquote, hcomma]⟩
      · cases hend
        exact ⟨_, [], _, _, .cons hm .nil, ⟨b, b', hb, hb', rfl⟩, by simp [hquote, hclose]⟩

end Passed

/-- **What is passed** was a value of the grammar. -/
theorem exists_value_of_skip (n : Nat) :
    (∀ s rest, skipValue n s = .ok rest →
      ∃ b t x, Blanks b ∧ IsValue t x ∧ s = b ++ (t ++ rest)) ∧
    (∀ s rest, skipItems n s = .ok rest →
      ∃ t ts xs u, List.Forall₂ IsValue (t :: ts) xs ∧ Separated (t :: ts) u ∧
        s = u ++ ']' :: rest) ∧
    (∀ s rest, skipMembers n s = .ok rest →
      ∃ t ts ms u, List.Forall₂ (IsMember IsValue) (t :: ts) ms ∧ Separated (t :: ts) u ∧
        s = u ++ '}' :: rest) := by
  induction n with
  | zero =>
    refine ⟨fun s rest h => ?_, fun s rest h => ?_, fun s rest h => ?_⟩
    · rw [skipValue] at h
      cases h
    · rw [skipItems] at h
      cases h
    · rw [skipMembers] at h
      cases h
  | succ n ih =>
    obtain ⟨hvalue, hitems, hmembers⟩ := ih
    refine ⟨fun s rest h => ?_, fun s rest h => exists_items_of_skip hvalue hitems h,
      fun s rest h => exists_members_of_skip hvalue hmembers h⟩
    rw [skipValue] at h
    split at h
    · cases h
    · next c r hskip =>
      obtain ⟨b, hb, rfl⟩ := exists_front hskip
      split_ifs at h with hlist hobject
      · split at h
        · cases h
        · next d r' hskip' =>
          obtain ⟨b', hb', rfl⟩ := exists_front hskip'
          split_ifs at h with hclose
          · cases h
            have hnone : Separated [] b' := hb'
            exact ⟨b, _, _, hb, .list hnone .nil, by simp [hlist, hclose]⟩
          · obtain ⟨t, ts, xs, u, hxs, hu, hr⟩ := hitems _ _ h
            rw [hr]
            exact ⟨b, _, _, hb, .list (hu.blanks_append hb') hxs, by simp [hlist]⟩
      · split at h
        · cases h
        · next d r' hskip' =>
          obtain ⟨b', hb', rfl⟩ := exists_front hskip'
          split_ifs at h with hclose
          · cases h
            have hnone : Separated [] b' := hb'
            exact ⟨b, _, _, hb, .object hnone .nil, by simp [hobject, hclose]⟩
          · obtain ⟨t, ts, ms, u, hms, hu, hr⟩ := hmembers _ _ h
            rw [hr]
            exact ⟨b, _, _, hb, .object (hu.blanks_append hb') hms, by simp [hobject]⟩
      · obtain ⟨t, x, ht, hs⟩ := exists_scalar_of_skip h
        exact ⟨b, t, x, hb, ht, by rw [hs]⟩

end MusicCatalog.Json
