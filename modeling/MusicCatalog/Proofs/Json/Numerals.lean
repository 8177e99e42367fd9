import MusicCatalog.Proofs.Json.Grammar
import MusicCatalog.Proofs.Json.Token

/-!
# Numerals of the grammar

The reader of numerals goes from one part of a numeral to the next and computes as it goes. Here the
text is cut into its parts first, and the reader is shown to compute from them what the numeral
means.

* `EndsDigits`, `Numeral.Ends`: text that does not continue some digits, or a numeral;
* `takeDigits_span`, `takeExponent_span`: runs of digits;
* **`numeral_unsigned`**: the reader on a numeral of the grammar;
* **`exists_unsigned`**: a text of which the reader makes a number begins with such a numeral.
-/

namespace MusicCatalog.Json

open Decimal Grammar

/-! ## Runs of digits -/

/-- The text does not begin with a digit. -/
def EndsDigits (r : List Char) : Prop := ∀ c ∈ r.head?, c.isDigit = false

theorem endsDigits_nil : EndsDigits [] := fun c hc => by cases hc

theorem endsDigits_cons {c : Char} {r : List Char} (h : c.isDigit = false) : EndsDigits (c :: r) := by
  intro d hd
  cases hd
  exact h

/-- Every text is a run of digits and something else. -/
theorem exists_span (s : List Char) :
    ∃ ds r, s = ds ++ r ∧ (∀ c ∈ ds, c.isDigit) ∧ EndsDigits r := by
  induction s with
  | nil => exact ⟨[], [], rfl, List.forall_mem_nil _, endsDigits_nil⟩
  | cons c s ih =>
    obtain ⟨ds, r, rfl, hds, hr⟩ := ih
    cases hc : c.isDigit with
    | true => exact ⟨c :: ds, r, rfl, List.forall_mem_cons.2 ⟨hc, hds⟩, hr⟩
    | false => exact ⟨[], c :: (ds ++ r), rfl, List.forall_mem_nil _, endsDigits_cons hc⟩

variable {n count : Nat} {ds r : List Char}

theorem takeWhile_span {p : Char → Bool} (hd : ∀ c ∈ ds, p c) (hr : ∀ c ∈ r.head?, p c = false) :
    (ds ++ r).takeWhile p = ds := by
  rw [List.takeWhile_append_of_pos hd]
  cases r with
  | nil => simp
  | cons c r => simp [hr c rfl]

theorem dropWhile_span (hd : ∀ c ∈ ds, c.isDigit) (hr : EndsDigits r) :
    (ds ++ r).dropWhile Char.isDigit = r := by
  rw [List.dropWhile_append_of_pos hd]
  cases r with
  | nil => rfl
  | cons c r => simp [hr c rfl]

/-- Digits are taken from a run as if nothing stood behind it. -/
theorem takeDigits_span (hr : EndsDigits r) :
    takeDigits n count (ds ++ r) =
      ((takeDigits n count ds).1, (takeDigits n count ds).2.1, (takeDigits n count ds).2.2 ++ r) := by
  induction ds generalizing n count with
  | nil =>
    cases r with
    | nil => rfl
    | cons c r => simp [takeDigits, hr c rfl]
  | cons c ds ih =>
    rw [List.cons_append, takeDigits, takeDigits]
    split_ifs
    · exact ih
    · rfl

theorem mem_takeDigits {c : Char} (h : c ∈ (takeDigits n count ds).2.2) : c ∈ ds := by
  induction ds generalizing n count with
  | nil => exact h
  | cons d ds ih =>
    rw [takeDigits] at h
    split_ifs at h
    · exact List.mem_cons_of_mem d (ih h)
    · exact h

/-- All digits are taken if their number fits, and only then. -/
theorem takeDigits_all (count : Nat) (hd : ∀ c ∈ ds, c.isDigit) (hn : n < 0x10000000000000000) :
    ((takeDigits n count ds).2.2 = [] ↔ Nat.ofDigitChars 10 ds n < 0x10000000000000000) ∧
      ((takeDigits n count ds).2.2 = [] → (takeDigits n count ds).1 = Nat.ofDigitChars 10 ds n) := by
  induction ds generalizing n count with
  | nil => exact ⟨iff_of_true rfl hn, fun _ => rfl⟩
  | cons c ds ih =>
    obtain ⟨hc, hds⟩ := List.forall_mem_cons.1 hd
    rw [ofDigitChars_cons_digitValue, takeDigits]
    by_cases hfits : n * 10 + digitValue c < 0x10000000000000000
    · rw [if_pos ⟨hc, hfits⟩]
      exact ih _ hds hfits
    · rw [if_neg fun h => hfits h.2]
      have hlarge := le_ofDigitChars ds (n * 10 + digitValue c)
      exact ⟨iff_of_false (List.cons_ne_nil c ds) fun h => hfits (hlarge.trans_lt h),
        fun h => absurd h (List.cons_ne_nil c ds)⟩

/-- The digits of an exponent, as a number of 31 bits or as one that is too large. -/
theorem takeExponent_span (hd : ∀ c ∈ ds, c.isDigit) (hn : n < 0x80000000) (hr : EndsDigits r) :
    (Nat.ofDigitChars 10 ds n < 0x80000000 →
      takeExponent n (ds ++ r) = (some (Nat.ofDigitChars 10 ds n), r)) ∧
    (¬ Nat.ofDigitChars 10 ds n < 0x80000000 →
      ∃ u, (∀ c ∈ u, c.isDigit) ∧ takeExponent n (ds ++ r) = (none, u ++ r)) := by
  induction ds generalizing n with
  | nil =>
    refine ⟨fun _ => ?_, fun h => absurd hn h⟩
    cases r with
    | nil => rfl
    | cons c r => simp [takeExponent, hr c rfl]
  | cons c ds ih =>
    obtain ⟨hc, hds⟩ := List.forall_mem_cons.1 hd
    rw [ofDigitChars_cons_digitValue, List.cons_append, takeExponent, if_pos hc]
    split_ifs with hfits
    · exact ih hds hfits
    · have hlarge := le_ofDigitChars ds (n * 10 + digitValue c)
      exact ⟨fun h => absurd (hlarge.trans_lt h) hfits, fun _ => ⟨ds, hds, rfl⟩⟩

theorem digitValue_le {c : Char} (hc : c.isDigit) : digitValue c ≤ 9 := by
  have h : c.toNat ≤ 57 := UInt32.le_iff_toNat_le.1 (of_decide_eq_true (Bool.and_eq_true_iff.1 hc).2)
  change c.toNat - 48 ≤ 9
  omega

theorem not_isDigit {c d : Char} (hc : c.isDigit) (hd : d.isDigit = false) : c ≠ d := by
  rintro rfl
  rw [hc] at hd
  cases hd

/-! ## The parts of a numeral -/

theorem Grammar.IsExponent.exists_letter {e : List Char} {down : Bool} {ds : List Char}
    (h : IsExponent e (some (down, ds))) :
    ∃ letter u, e = letter :: u ∧ (letter = 'e' ∨ letter = 'E') := by
  cases h <;> exact ⟨_, _, rfl, ‹_›⟩

theorem Grammar.IsExponent.endsDigits {e : List Char} {exponent : Option (Bool × List Char)}
    (h : IsExponent e exponent) (hr : EndsDigits r) : EndsDigits (e ++ r) := by
  cases exponent with
  | none =>
    cases h
    exact hr
  | some x =>
    obtain ⟨letter, u, rfl, rfl | rfl⟩ := h.exists_letter <;> exact endsDigits_cons (by decide)

theorem Grammar.IsFraction.endsDigits {f : List Char} {fraction : Option (List Char)}
    (h : IsFraction f fraction) (hr : EndsDigits r) : EndsDigits (f ++ r) := by
  cases h with
  | absent => exact hr
  | present => exact endsDigits_cons (by decide)

/-- What is left where a numeral ends: nothing that continues it. -/
def Numeral.Ends (fraction : Option (List Char)) (exponent : Option (Bool × List Char))
    (r : List Char) : Prop :=
  EndsDigits r ∧ (exponent = none → ∀ c ∈ r.head?, c ≠ 'e' ∧ c ≠ 'E' ∧ (fraction = none → c ≠ '.'))

section Parts

variable (negative : Bool) (m : Nat) (point : Int) {e : List Char}
  {exponent : Option (Bool × List Char)}

theorem toOption_signed (magnitude : Option Magnitude) (r : List Char) :
    (signed negative magnitude r).toOption =
      (magnitude.map fun a => (⟨negative, a⟩ : Binary64)).map fun x => (Value.float x, r) := by
  cases magnitude <;> rfl

/-- The digits of an exponent, behind its sign. -/
def exponentDigits (down : Bool) : Reader Value
  | [] => .error (.here .endInValue [])
  | c :: r =>
    if c.isDigit then
      match takeExponent (digitValue c) r with
      | (some n, rest) => floating negative m (if down then point - n else point + n) rest
      | (none, rest) =>
        if m ≠ 0 ∧ !down then .error (.here .numberOutOfRange rest)
        else .ok (.float ⟨negative, .zero⟩, rest.dropWhile Char.isDigit)
    else .error (.ahead .invalidNumber (c :: r))

theorem exponentTail_minus (s : List Char) :
    exponentTail negative m point ('-' :: s) = exponentDigits negative m point true s := by
  cases s <;> rfl

theorem exponentTail_plus (s : List Char) :
    exponentTail negative m point ('+' :: s) = exponentDigits negative m point false s := by
  cases s <;> rfl

theorem exponentTail_bare {c : Char} (hm : c ≠ '-') (hp : c ≠ '+') (s : List Char) :
    exponentTail negative m point (c :: s) = exponentDigits negative m point false (c :: s) := by
  rw [exponentTail, if_neg hm, if_neg hp]
  rcases htake : takeExponent (digitValue c) s with ⟨_ | n, rest⟩ <;>
    simp only [exponentDigits, htake]

theorem exponentDigits_span {down : Bool} {ds : List Char} (h : IsDigits ds) (hr : EndsDigits r) :
    (exponentDigits negative m point down (ds ++ r)).toOption =
      (scaled? negative m point (some (down, ds))).map fun x => (Value.float x, r) := by
  obtain ⟨c, cs, rfl⟩ := List.exists_cons_of_ne_nil h.1
  obtain ⟨hc, hcs⟩ := List.forall_mem_cons.1 h.2
  have hvalue := digitValue_le hc
  obtain ⟨hsmall, hlarge⟩ := takeExponent_span (n := digitValue c) hcs (by omega) hr
  rw [List.cons_append, exponentDigits, if_pos hc, scaled?]
  simp only [ofDigitChars_cons_digitValue, Nat.zero_mul, Nat.zero_add]
  by_cases hfits : Nat.ofDigitChars 10 cs (digitValue c) < 0x80000000
  · simp only [hsmall hfits, if_pos hfits]
    exact toOption_signed negative _ r
  · obtain ⟨v, hv, htake⟩ := hlarge hfits
    simp only [htake, if_neg hfits]
    split_ifs
    · rfl
    · rw [dropWhile_span hv hr]
      rfl

/-- The exponent of a numeral, behind its letter. -/
theorem exponentTail_span {letter : Char} {u : List Char} {down : Bool} {ds : List Char}
    (h : IsExponent (letter :: u) (some (down, ds))) (hr : EndsDigits r) :
    (exponentTail negative m point (u ++ r)).toOption =
      (scaled? negative m point (some (down, ds))).map fun x => (Value.float x, r) := by
  cases h with
  | bare he h =>
    rw [← exponentDigits_span negative m point h hr]
    obtain ⟨c, cs, rfl⟩ := List.exists_cons_of_ne_nil h.1
    have hc := h.2 c List.mem_cons_self
    rw [List.cons_append, exponentTail_bare negative m point
      (not_isDigit hc (by decide)) (not_isDigit hc (by decide))]
  | plus he h =>
    rw [List.cons_append, exponentTail_plus, exponentDigits_span negative m point h hr]
  | minus he h =>
    rw [List.cons_append, exponentTail_minus, exponentDigits_span negative m point h hr]

/-- What stands behind the digits of a fraction. -/
theorem fractionEnd_span (he : IsExponent e exponent) {fraction : List Char}
    (hr : Numeral.Ends (some fraction) exponent r) :
    (fractionEnd negative m point (e ++ r)).toOption =
      (scaled? negative m point exponent).map fun x => (Value.float x, r) := by
  cases exponent with
  | none =>
    cases he
    have hfloating : fractionEnd negative m point r = floating negative m point r := by
      cases r with
      | nil => rfl
      | cons c r =>
        obtain ⟨hsmall, hcapital, -⟩ := hr.2 rfl c rfl
        rw [fractionEnd, if_neg (by simp [hsmall, hcapital])]
    rw [List.nil_append, hfloating]
    exact toOption_signed negative _ r
  | some x =>
    obtain ⟨down, ds⟩ := x
    obtain ⟨letter, u, rfl, hletter⟩ := he.exists_letter
    rw [List.cons_append, fractionEnd, if_pos hletter]
    exact exponentTail_span negative m point he hr.1

theorem fractionTail_span {fraction : List Char} (hf : IsDigits fraction)
    (hr : EndsDigits r) :
    fractionTail negative m point (fraction ++ r) =
      fractionEnd negative (takeDigits m 0 fraction).1
        (point - (takeDigits m 0 fraction).2.1) r := by
  have htake : takeDigits m 0 (fraction ++ r) = ((takeDigits m 0 fraction).1,
      (takeDigits m 0 fraction).2.1, (takeDigits m 0 fraction).2.2 ++ r) := takeDigits_span hr
  have hrest : ∀ c ∈ (takeDigits m 0 fraction).2.2, c.isDigit := fun c hc =>
    hf.2 c (mem_takeDigits hc)
  obtain ⟨c, cs, rfl⟩ := List.exists_cons_of_ne_nil hf.1
  have hc := hf.2 c List.mem_cons_self
  rw [List.cons_append, fractionTail, if_pos hc, ← List.cons_append, htake]
  simp only [dropWhile_span hrest hr]

end Parts

/-! ## Numerals -/

theorem ofInt?_large {k : Nat} (negative : Bool) (hk : ¬ k < 0x10000000000000000) :
    Whole.ofInt? (if negative then -(k : Int) else k) = none := by
  refine dif_neg fun h => ?_
  cases negative with
  | true => exact absurd h.1 (by simp only [↓reduceIte]; omega)
  | false => exact absurd h.2 (by simp only [Bool.false_eq_true, ↓reduceIte]; omega)

theorem value?_of_whole?_eq_none {x : Numeral} (h : x.whole? = none) (r : List Char) :
    x.value?.map (·, r) = x.float?.map fun y => (Value.float y, r) := by
  rw [Numeral.value?, h]
  exact Option.map_map ..

/-- An integer, or what is too large for one, where its digits end. -/
theorem wholeEnd_span {x : Numeral} (hw : IsDigits x.whole) (hf : x.fraction = none)
    (he : x.exponent = none) (r : List Char) :
    (wholeEnd x.negative (takeDigits 0 0 x.whole).1 (takeDigits 0 0 x.whole).2.2.length r).toOption =
      x.value?.map (·, r) := by
  obtain ⟨hall, hvalue⟩ := takeDigits_all 0 hw.2 (show 0 < 0x10000000000000000 by decide)
  have hfloat : x.float? = (Magnitude.ofDecimal (takeDigits 0 0 x.whole).1
      (takeDigits 0 0 x.whole).2.2.length).map (⟨x.negative, ·⟩) := by
    rw [Numeral.float?, Numeral.mantissa, hf, he]
    change scaled? _ _ (_ - ((0 : Nat) : Int)) _ = _
    rw [Int.natCast_zero, Int.sub_zero]
    rfl
  have hwhole : x.whole? = if x.negative ∧ Nat.ofDigitChars 10 x.whole 0 = 0 then none
      else Whole.ofInt? (if x.negative then -(Nat.ofDigitChars 10 x.whole 0 : Int)
        else Nat.ofDigitChars 10 x.whole 0) := by
    rw [Numeral.whole?, hf, he]
    simp only [Option.isSome_none, Bool.false_eq_true, false_or]
  by_cases hnil : (takeDigits 0 0 x.whole).2.2 = []
  · rw [hvalue hnil, hnil, List.length_nil, Int.natCast_zero] at hfloat
    rw [hvalue hnil, hnil, List.length_nil, wholeEnd]
    generalize Nat.ofDigitChars 10 x.whole 0 = k at hfloat hwhole ⊢
    by_cases hzero : x.negative ∧ k = 0
    · rw [if_pos hzero] at hwhole
      rw [if_pos (.inr hzero), value?_of_whole?_eq_none hwhole, hfloat]
      exact toOption_signed ..
    · rw [if_neg hzero] at hwhole
      rw [if_neg (by simpa using hzero), ← hwhole]
      cases hint : x.whole? with
      | some w =>
        rw [Numeral.value?, hint]
        rfl
      | none =>
        rw [value?_of_whole?_eq_none hint, hfloat]
        exact toOption_signed ..
  · have hlarge := fun h => hnil (hall.2 h)
    rw [ofInt?_large x.negative hlarge, ite_self] at hwhole
    rw [wholeEnd, if_pos (.inl (mt List.length_eq_zero_iff.1 hnil)),
      value?_of_whole?_eq_none hwhole, hfloat]
    exact toOption_signed ..

theorem afterWhole_end (negative : Bool) (k dropped : Nat)
    (hr : ∀ c ∈ r.head?, c ≠ '.' ∧ c ≠ 'e' ∧ c ≠ 'E') :
    afterWhole negative k dropped r = wholeEnd negative k dropped r := by
  cases r with
  | nil => rfl
  | cons c r =>
    obtain ⟨hp, he, hE⟩ := hr c rfl
    rw [afterWhole, if_neg hp, if_neg (by simp [he, hE])]

/-- What stands behind the digits before the point. -/
theorem afterWhole_span {x : Numeral} {f e : List Char} (hw : IsDigits x.whole)
    (hf : IsFraction f x.fraction) (he : IsExponent e x.exponent)
    (hr : Numeral.Ends x.fraction x.exponent r) :
    (afterWhole x.negative (takeDigits 0 0 x.whole).1 (takeDigits 0 0 x.whole).2.2.length
      (f ++ (e ++ r))).toOption = x.value?.map (·, r) := by
  -- a numeral with a fraction or an exponent is a floating number
  have hfloat : x.fraction.isSome ∨ x.exponent.isSome →
      x.value?.map (·, r) = x.float?.map fun y => (Value.float y, r) := by
    intro h
    refine value?_of_whole?_eq_none ?_ r
    rw [Numeral.whole?, if_pos]
    exact h.imp_right .inl
  obtain ⟨negative, whole, fraction, exponent⟩ := x
  cases hf with
  | absent =>
    cases exponent with
    | none =>
      cases he
      obtain ⟨-, hend⟩ := hr
      rw [List.nil_append, List.nil_append, afterWhole_end]
      · exact wholeEnd_span hw rfl rfl r
      · intro c hc
        obtain ⟨he, hE, hp⟩ := hend rfl c hc
        exact ⟨hp rfl, he, hE⟩
    | some y =>
      obtain ⟨down, ds⟩ := y
      obtain ⟨letter, u, rfl, hletter⟩ := he.exists_letter
      have hpoint : letter ≠ '.' := by rintro rfl; revert hletter; decide
      rw [hfloat (.inr rfl), List.nil_append, List.cons_append, afterWhole, if_neg hpoint,
        if_pos hletter, exponentTail_span _ _ _ he hr.1, Numeral.float?, Numeral.mantissa]
      change _ = (scaled? negative _ (_ - ((0 : Nat) : Int)) _).map _
      rw [Int.natCast_zero, Int.sub_zero]
      rfl
  | present hds =>
    rw [hfloat (.inl rfl), List.cons_append, afterWhole, if_pos rfl,
      fractionTail_span _ _ _ hds (he.endsDigits hr.1), fractionEnd_span _ _ _ he hr]
    rfl

/-- The digits before the point. -/
theorem numeral_span (negative : Bool) {whole : List Char} (hw : IsDigits whole)
    (hzero : whole.head? = some '0' → whole = ['0']) (hr : EndsDigits r) :
    numeral negative (whole ++ r) =
      afterWhole negative (takeDigits 0 0 whole).1 (takeDigits 0 0 whole).2.2.length r := by
  obtain ⟨c, cs, rfl⟩ := List.exists_cons_of_ne_nil hw.1
  by_cases hc : c = '0'
  · subst hc
    obtain rfl : cs = [] := (List.cons.inj (hzero rfl)).2
    cases r with
    | nil => rfl
    | cons d r =>
      have hd := hr d rfl
      rw [List.singleton_append, numeral.eq_def]
      simp only [hd, Bool.false_eq_true, ↓reduceIte]
      rfl
  · have hdigit := hw.2 c List.mem_cons_self
    have hvalue := digitValue_le hdigit
    have hfits : 0 * 10 + digitValue c < 0x10000000000000000 := by omega
    have hrest : ∀ d ∈ (takeDigits (digitValue c) 1 cs).2.2, d.isDigit := fun d hd =>
      hw.2 d (List.mem_cons_of_mem c (mem_takeDigits hd))
    have htake : takeDigits 0 0 (c :: cs) = takeDigits (digitValue c) 1 cs := by
      rw [takeDigits, if_pos ⟨hdigit, hfits⟩, Nat.zero_mul, Nat.zero_add]
    rw [List.cons_append, numeral.eq_def]
    simp only [hc, hdigit, ↓reduceIte, takeDigits_span hr, htake, takeWhile_span hrest hr,
      List.drop_left]

/-- **A numeral of the grammar** is read as what it means. -/
theorem numeral_unsigned {t : List Char} {x : Numeral} (h : IsUnsigned t x)
    (hr : Numeral.Ends x.fraction x.exponent r) :
    (numeral x.negative (t ++ r)).toOption = x.value?.map (·, r) := by
  cases h with
  | @mk negative whole f e fraction exponent hw hf he =>
    obtain ⟨hdigits, hzero⟩ := hw
    have hafter := afterWhole_span (x := ⟨negative, whole, fraction, exponent⟩) hdigits hf he hr
    have hends : EndsDigits (f ++ (e ++ r)) := hf.endsDigits (he.endsDigits hr.1)
    rw [← hafter, List.append_assoc, List.append_assoc]
    congr 1
    exact numeral_span negative hdigits hzero hends

/-! ## Texts that are read as numbers -/

section Found

variable {negative : Bool} {m : Nat} {point : Int} {s : List Char} {p : Value × List Char}

/-- A text that begins with a digit is a run of digits and something else. -/
theorem exists_digits {c : Char} (hc : c.isDigit) (s : List Char) :
    ∃ ds r, c :: s = ds ++ r ∧ IsDigits ds ∧ EndsDigits r ∧ ds.head? = some c := by
  obtain ⟨ds, r, rfl, hds, hr⟩ := exists_span s
  exact ⟨c :: ds, r, rfl, ⟨List.cons_ne_nil c ds, List.forall_mem_cons.2 ⟨hc, hds⟩⟩, hr, rfl⟩

theorem exists_exponentDigits {down : Bool} (h : exponentDigits negative m point down s = .ok p) :
    ∃ ds r, IsDigits ds ∧ EndsDigits r ∧ s = ds ++ r := by
  cases s with
  | nil => cases h
  | cons c s =>
    by_cases hc : c.isDigit
    · obtain ⟨ds, r, hs, hds, hr, -⟩ := exists_digits hc s
      exact ⟨ds, r, hds, hr, hs⟩
    · rw [exponentDigits, if_neg hc] at h
      cases h

theorem exists_exponentTail (h : exponentTail negative m point s = .ok p) {letter : Char}
    (hletter : letter = 'e' ∨ letter = 'E') :
    ∃ e exponent r, IsExponent e (some exponent) ∧ EndsDigits r ∧ letter :: s = e ++ r := by
  cases s with
  | nil => cases h
  | cons c s =>
    by_cases hm : c = '-'
    · subst hm
      rw [exponentTail_minus] at h
      obtain ⟨ds, r, hds, hr, rfl⟩ := exists_exponentDigits h
      exact ⟨_, _, r, .minus hletter hds, hr, rfl⟩
    · by_cases hp : c = '+'
      · subst hp
        rw [exponentTail_plus] at h
        obtain ⟨ds, r, hds, hr, rfl⟩ := exists_exponentDigits h
        exact ⟨_, _, r, .plus hletter hds, hr, rfl⟩
      · rw [exponentTail_bare negative m point hm hp] at h
        obtain ⟨ds, r, hds, hr, hs⟩ := exists_exponentDigits h
        rw [hs]
        exact ⟨_, _, r, .bare hletter hds, hr, rfl⟩

theorem exists_fractionEnd (h : fractionEnd negative m point s = .ok p) (hs : EndsDigits s)
    (fraction : List Char) :
    ∃ e exponent r, IsExponent e exponent ∧ Numeral.Ends (some fraction) exponent r ∧ s = e ++ r := by
  cases s with
  | nil => exact ⟨[], none, [], .absent, ⟨hs, fun _ c hc => by cases hc⟩, rfl⟩
  | cons c s =>
    by_cases hc : c = 'e' ∨ c = 'E'
    · rw [fractionEnd, if_pos hc] at h
      obtain ⟨e, exponent, r, he, hr, hcs⟩ := exists_exponentTail h hc
      exact ⟨e, _, r, he, ⟨hr, fun h => by cases h⟩, hcs⟩
    · refine ⟨[], none, c :: s, .absent, ⟨hs, fun _ d hd => ?_⟩, rfl⟩
      cases hd
      exact ⟨fun h => hc (.inl h), fun h => hc (.inr h), fun h => by cases h⟩

theorem exists_afterWhole {dropped : Nat} (h : afterWhole negative m dropped s = .ok p)
    (hs : EndsDigits s) :
    ∃ f e fraction exponent r, IsFraction f fraction ∧ IsExponent e exponent ∧
      Numeral.Ends fraction exponent r ∧ s = f ++ (e ++ r) := by
  cases s with
  | nil => exact ⟨[], [], none, none, [], .absent, .absent, ⟨hs, fun _ c hc => by cases hc⟩, rfl⟩
  | cons c s =>
    by_cases hp : c = '.'
    · subst hp
      rw [afterWhole, if_pos rfl] at h
      cases s with
      | nil => cases h
      | cons d s =>
        by_cases hd : d.isDigit
        · obtain ⟨fs, r, hfs, hds, hr, -⟩ := exists_digits hd s
          rw [hfs, fractionTail_span _ _ _ hds hr] at h
          obtain ⟨e, exponent, r, he, hends, rfl⟩ := exists_fractionEnd h hr fs
          exact ⟨_, e, _, exponent, r, .present hds, he, hends, by rw [hfs]; rfl⟩
        · rw [fractionTail, if_neg hd] at h
          cases h
    · by_cases hc : c = 'e' ∨ c = 'E'
      · rw [afterWhole, if_neg hp, if_pos hc] at h
        obtain ⟨e, exponent, r, he, hr, hcs⟩ := exists_exponentTail h hc
        exact ⟨[], e, none, _, r, .absent, he, ⟨hr, fun h => by cases h⟩, hcs⟩
      · refine ⟨[], [], none, none, c :: s, .absent, .absent, ⟨hs, fun _ d hd => ?_⟩, rfl⟩
        cases hd
        exact ⟨fun h => hc (.inl h), fun h => hc (.inr h), fun _ => hp⟩

/-- The digits before the point, of a text that is read as a number. -/
theorem exists_whole (h : numeral negative s = .ok p) :
    ∃ whole r, IsWhole whole ∧ EndsDigits r ∧ s = whole ++ r := by
  cases s with
  | nil => cases h
  | cons c s =>
    by_cases hc : c = '0'
    · subst hc
      refine ⟨['0'], s, ⟨⟨List.cons_ne_nil _ _, List.forall_mem_singleton.2 rfl⟩, fun _ => rfl⟩, ?_,
        rfl⟩
      intro d hd
      cases s with
      | nil => cases hd
      | cons d' s =>
        cases hd
        rw [numeral.eq_def] at h
        simp only [↓reduceIte] at h
        split_ifs at h with hdigit
        exact Bool.not_eq_true _ ▸ hdigit
    · by_cases hdigit : c.isDigit
      · obtain ⟨ds, r, hs, hds, hr, hhead⟩ := exists_digits hdigit s
        refine ⟨ds, r, ⟨hds, fun h0 => ?_⟩, hr, hs⟩
        rw [hhead] at h0
        exact absurd (Option.some.inj h0) hc
      · rw [numeral.eq_def] at h
        simp only [hc, hdigit, ↓reduceIte, Bool.false_eq_true] at h
        cases h

/-- **A text that is read as a number** begins with a numeral of the grammar. -/
theorem exists_unsigned (h : numeral negative s = .ok p) :
    ∃ t x r, IsUnsigned t x ∧ x.negative = negative ∧ Numeral.Ends x.fraction x.exponent r ∧
      s = t ++ r := by
  obtain ⟨whole, r, hw, hr, rfl⟩ := exists_whole h
  rw [numeral_span negative hw.1 hw.2 hr] at h
  obtain ⟨f, e, fraction, exponent, r, hf, he, hends, rfl⟩ := exists_afterWhole h hr
  exact ⟨_, ⟨negative, whole, fraction, exponent⟩, r, .mk hw hf he, rfl, hends, by
    rw [List.append_assoc, List.append_assoc]⟩

end Found

end MusicCatalog.Json
