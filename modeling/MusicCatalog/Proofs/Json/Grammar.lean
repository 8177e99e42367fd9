import Mathlib.Data.List.Forall2
import MusicCatalog.Proofs.Json.Nesting
import MusicCatalog.Proofs.Json.Outcome

/-!
# The grammar of JSON

What texts are JSON is said here by productions alone, without a reader. A text has a phrase, which
is how it is put together: strings as they are escaped, numerals digit by digit. The grammar allows
some phrases that mean nothing, half a surrogate pair and numbers beyond all range, and it sets no
limit to nesting, so the meaning of a phrase is a function of its own.

* `Glyph`, `Numeral`, `Phrase`: characters, numerals and values as they are written;
* `Grammar.IsString`, `Grammar.IsNumber`, **`Grammar.IsValue`**, `Grammar.IsText`: the productions;
* `text?`, `Numeral.value?`, **`Phrase.value?`**: what a phrase means, if it means anything;
* **`Denotes`**, `Spells`: a text, or a part of one, stands for a value.
-/

namespace MusicCatalog.Json

open Decimal Text

/-! ## Phrases -/

/-- A character of a string, as it is written. -/
inductive Glyph where
  /-- A character that stands for itself, or is escaped by one letter. -/
  | plain (c : Char)
  /-- A code unit of UTF-16, escaped by four hexadecimal digits. -/
  | unit (n : Nat)

/-- A numeral: its digits before the point, those behind it, and those of the exponent, which may
have a minus of its own. -/
structure Numeral where
  negative : Bool
  whole : List Char
  fraction : Option (List Char)
  exponent : Option (Bool × List Char)

/-- A value as it is written, but for the blanks between its tokens. -/
inductive Phrase where
  | null
  | bool (b : Bool)
  | number (n : Numeral)
  | string (glyphs : List Glyph)
  | list (items : List Phrase)
  | object (members : List (List Glyph × Phrase))

/-! ## Productions -/

namespace Grammar

/-- Some digits, and not none. -/
def IsDigits (ds : List Char) : Prop := ds ≠ [] ∧ ∀ c ∈ ds, c.isDigit

/-- The digits before the point: no zero in front of others. -/
def IsWhole (ds : List Char) : Prop := IsDigits ds ∧ (ds.head? = some '0' → ds = ['0'])

/-- The fraction of a numeral, if it has one. -/
inductive IsFraction : List Char → Option (List Char) → Prop
  | absent : IsFraction [] none
  | present {ds : List Char} (h : IsDigits ds) : IsFraction ('.' :: ds) (some ds)

/-- The exponent of a numeral, if it has one. -/
inductive IsExponent : List Char → Option (Bool × List Char) → Prop
  | absent : IsExponent [] none
  | bare {e : Char} {ds : List Char} (he : e = 'e' ∨ e = 'E') (h : IsDigits ds) :
    IsExponent (e :: ds) (some (false, ds))
  | plus {e : Char} {ds : List Char} (he : e = 'e' ∨ e = 'E') (h : IsDigits ds) :
    IsExponent (e :: '+' :: ds) (some (false, ds))
  | minus {e : Char} {ds : List Char} (he : e = 'e' ∨ e = 'E') (h : IsDigits ds) :
    IsExponent (e :: '-' :: ds) (some (true, ds))

/-- A numeral behind its sign. -/
inductive IsUnsigned : List Char → Numeral → Prop
  | mk {negative : Bool} {whole f e : List Char} {fraction : Option (List Char)}
    {exponent : Option (Bool × List Char)} (hw : IsWhole whole) (hf : IsFraction f fraction)
    (he : IsExponent e exponent) :
    IsUnsigned (whole ++ (f ++ e)) ⟨negative, whole, fraction, exponent⟩

/-- A numeral. -/
inductive IsNumber : List Char → Numeral → Prop
  | unsigned {t : List Char} {n : Numeral} (h : IsUnsigned t n) (hn : n.negative = false) :
    IsNumber t n
  | minus {t : List Char} {n : Numeral} (h : IsUnsigned t n) (hn : n.negative = true) :
    IsNumber ('-' :: t) n

/-- A hexadecimal digit, small or capital, and its value. -/
def IsHexDigit (c : Char) (d : Nat) : Prop := d < 16 ∧ (c = d.digitChar ∨ c = d.digitChar.toUpper)

/-- The letters that may follow a backslash, and the characters they stand for. -/
def shortEscapes : List (Char × Char) :=
  [('"', '"'), ('\\', '\\'), ('/', '/'), ('b', '\x08'), ('f', '\x0c'), ('n', '\n'), ('r', '\r'),
    ('t', '\t')]

/-- A character of a string. -/
inductive IsGlyph : List Char → Glyph → Prop
  | unescaped {c : Char} (h : 0x20 ≤ c.toNat) (hq : c ≠ '"') (hb : c ≠ '\\') :
    IsGlyph [c] (.plain c)
  | escaped {letter c : Char} (h : (letter, c) ∈ shortEscapes) :
    IsGlyph ['\\', letter] (.plain c)
  | coded {a b c d : Char} {i j k l : Nat} (ha : IsHexDigit a i) (hb : IsHexDigit b j)
    (hc : IsHexDigit c k) (hd : IsHexDigit d l) :
    IsGlyph ['\\', 'u', a, b, c, d] (.unit (i * 0x1000 + j * 0x100 + k * 0x10 + l))

/-- The characters between the quotes of a string. -/
inductive IsGlyphs : List Char → List Glyph → Prop
  | nil : IsGlyphs [] []
  | cons {t s : List Char} {g : Glyph} {gs : List Glyph} (ht : IsGlyph t g) (hs : IsGlyphs s gs) :
    IsGlyphs (t ++ s) (g :: gs)

/-- A string. -/
inductive IsString : List Char → List Glyph → Prop
  | mk {s : List Char} {gs : List Glyph} (h : IsGlyphs s gs) : IsString ('"' :: (s ++ ['"'])) gs

/-- A member of an object, whose value is of some kind. -/
inductive IsMember (V : List Char → Phrase → Prop) : List Char → List Glyph × Phrase → Prop
  | mk {k b b' t : List Char} {gs : List Glyph} {x : Phrase} (hk : IsString k gs) (hb : Blanks b)
    (hb' : Blanks b') (ht : V t x) : IsMember V (k ++ (b ++ ':' :: (b' ++ t))) (gs, x)

/-- A value. -/
inductive IsValue : List Char → Phrase → Prop
  | null : IsValue ['n', 'u', 'l', 'l'] .null
  | yes : IsValue ['t', 'r', 'u', 'e'] (.bool true)
  | no : IsValue ['f', 'a', 'l', 's', 'e'] (.bool false)
  | number {t : List Char} {n : Numeral} (h : IsNumber t n) : IsValue t (.number n)
  | string {t : List Char} {gs : List Glyph} (h : IsString t gs) : IsValue t (.string gs)
  | list {s : List Char} {ts : List (List Char)} {xs : List Phrase} (hs : Separated ts s)
    (h : List.Forall₂ IsValue ts xs) : IsValue ('[' :: (s ++ [']'])) (.list xs)
  | object {s : List Char} {ts : List (List Char)} {ms : List (List Glyph × Phrase)}
    (hs : Separated ts s) (h : List.Forall₂ (IsMember IsValue) ts ms) :
    IsValue ('{' :: (s ++ ['}'])) (.object ms)

/-- A whole text: one value, with blanks around it and nothing else. -/
inductive IsText : List Char → Phrase → Prop
  | mk {b t b' : List Char} {x : Phrase} (hb : Blanks b) (ht : IsValue t x) (hb' : Blanks b') :
    IsText (b ++ (t ++ b')) x

end Grammar

/-! ## Meaning -/

/-- The characters of a string. A code unit that is half of a surrogate pair must have the other
half next to it. -/
def text? : List Glyph → Option (List Char)
  | [] => some []
  | .plain c :: gs => (text? gs).map (c :: ·)
  | .unit n :: gs =>
    if isLowSurrogate n then none
    else if isHighSurrogate n then
      match gs with
      | .unit m :: gs' =>
        if isLowSurrogate m then (text? gs').map (pairedChar n m :: ·) else none
      | _ => none
    else (text? gs).map (Char.ofNat n :: ·)

/-- The floating number of a mantissa and an exponent, if it is finite. An exponent beyond 31 bits
makes zero of everything if it is negative, and is otherwise too large for everything but zero. -/
def scaled? (negative : Bool) (mantissa : Nat) (point : Int) :
    Option (Bool × List Char) → Option Binary64
  | none => (Magnitude.ofDecimal mantissa point).map (⟨negative, ·⟩)
  | some (down, ds) =>
    let n := Nat.ofDigitChars 10 ds 0
    if n < 0x80000000 then
      (Magnitude.ofDecimal mantissa (if down then point - n else point + n)).map (⟨negative, ·⟩)
    else if mantissa ≠ 0 ∧ !down then none
    else some ⟨negative, .zero⟩

namespace Numeral

variable (x : Numeral)

/-- The integer, if the numeral has neither fraction nor exponent and fits 64 bits. Minus zero is
not an integer. -/
def whole? : Option Whole :=
  let n := Nat.ofDigitChars 10 x.whole 0
  if x.fraction.isSome ∨ x.exponent.isSome ∨ (x.negative ∧ n = 0) then none
  else Whole.ofInt? (if x.negative then -(n : Int) else n)

/-- The digits as far as they fit 64 bits, and the place of the point behind them: the digits that
are left out before the point, less those that are kept behind it. -/
def mantissa : Nat × Int :=
  let (n, _, dropped) := takeDigits 0 0 x.whole
  let (m, taken, _) := takeDigits n 0 (x.fraction.getD [])
  (m, (dropped.length : Int) - taken)

/-- The floating number, if it is finite. -/
def float? : Option Binary64 := scaled? x.negative x.mantissa.1 x.mantissa.2 x.exponent

/-- The number, if it is in the range of integers or of floating numbers. -/
def value? : Option Value :=
  match x.whole? with
  | some w => some (.int w)
  | none => x.float?.map .float

end Numeral

mutual

/-- What a phrase means, if all its strings and numbers mean something. -/
def Phrase.value? : Phrase → Option Value
  | .null => some .null
  | .bool b => some (.bool b)
  | .number n => n.value?
  | .string gs => (text? gs).map fun cs => .str (String.ofList cs)
  | .list items => (itemValues? items).map .arr
  | .object members => (memberValues? members).map .obj

/-- The values of a list. -/
def itemValues? : List Phrase → Option (List Value)
  | [] => some []
  | x :: xs => do return (← x.value?) :: (← itemValues? xs)

/-- The members of an object, in the order of the text and repeated keys included. -/
def memberValues? : List (List Glyph × Phrase) → Option Members
  | [] => some []
  | (gs, x) :: ms => do
    return (String.ofList (← text? gs), ← x.value?) :: (← memberValues? ms)

end

/-- A value is spelled by some characters, without blanks around them. -/
def Spells (t : List Char) (v : Value) : Prop := ∃ x, Grammar.IsValue t x ∧ x.value? = some v

/-- A string is spelled, between its quotes. -/
def SpellsString (t : List Char) (k : String) : Prop :=
  ∃ gs cs, Grammar.IsString t gs ∧ text? gs = some cs ∧ k = String.ofList cs

/-- A key with its value, both spelled, and blanks around the colon. -/
def SpellsMember (t : List Char) (m : String × Value) : Prop :=
  ∃ k b b' u, SpellsString k m.1 ∧ Blanks b ∧ Blanks b' ∧ Spells u m.2 ∧
    t = k ++ (b ++ ':' :: (b' ++ u))

/-- A text stands for a value. -/
def Denotes (s : List Char) (v : Value) : Prop := ∃ x, Grammar.IsText s x ∧ x.value? = some v

/-! ## Compound values -/

/-- Lists are related through a third one exactly if their items are through items of that. -/
theorem forall₂_exists_iff {α β γ : Type} {R : α → β → Prop} {S : β → γ → Prop} {as : List α}
    {cs : List γ} :
    List.Forall₂ (fun a c => ∃ b, R a b ∧ S b c) as cs ↔
      ∃ bs, List.Forall₂ R as bs ∧ List.Forall₂ S bs cs := by
  constructor
  · intro h
    induction h with
    | nil => exact ⟨[], .nil, .nil⟩
    | cons h _ ih =>
      obtain ⟨b, hR, hS⟩ := h
      obtain ⟨bs, hRs, hSs⟩ := ih
      exact ⟨b :: bs, .cons hR hRs, .cons hS hSs⟩
  · rintro ⟨bs, hRs, hSs⟩
    induction hRs generalizing cs with
    | nil =>
      cases hSs
      exact .nil
    | cons hR _ ih =>
      cases hSs with
      | cons hS hSs => exact .cons ⟨_, hR, hS⟩ (ih hSs)

theorem forall₂_map_eq_iff {α β : Type} {f : α → β} {as : List α} {bs : List β} :
    List.Forall₂ (fun a b => f a = b) as bs ↔ as.map f = bs := by
  rw [← List.forall₂_eq_eq_eq, List.forall₂_map_left_iff]

theorem itemValues?_eq_some_iff {xs : List Phrase} {vs : List Value} :
    itemValues? xs = some vs ↔ List.Forall₂ (fun x v => x.value? = some v) xs vs := by
  induction xs generalizing vs with
  | nil => simp [itemValues?, eq_comm]
  | cons x xs ih =>
    simp only [itemValues?, Option.bind_eq_bind, Option.bind_eq_some_iff, Option.pure_def,
      Option.some.injEq, ih, List.forall₂_cons_left_iff]
    constructor
    · rintro ⟨v, hv, vs, hvs, rfl⟩
      exact ⟨v, vs, hv, hvs, rfl⟩
    · rintro ⟨v, vs, hv, hvs, rfl⟩
      exact ⟨v, hv, vs, hvs, rfl⟩

theorem memberValues?_eq_some_iff {xs : List (List Glyph × Phrase)} {ms : Members} :
    memberValues? xs = some ms ↔ List.Forall₂
      (fun x m => text? x.1 = some m.1.toList ∧ x.2.value? = some m.2) xs ms := by
  induction xs generalizing ms with
  | nil => simp [memberValues?, eq_comm]
  | cons x xs ih =>
    simp only [memberValues?, Option.bind_eq_bind, Option.bind_eq_some_iff, Option.pure_def,
      Option.some.injEq, ih, List.forall₂_cons_left_iff]
    constructor
    · rintro ⟨cs, hcs, v, hv, ms, hms, rfl⟩
      exact ⟨_, ms, ⟨by rw [hcs, String.toList_ofList], hv⟩, hms, rfl⟩
    · rintro ⟨⟨key, v⟩, ms, ⟨hkey, hv⟩, hms, rfl⟩
      exact ⟨_, hkey, v, hv, ms, hms, by rw [String.ofList_toList]⟩

theorem forall₂_spells_iff {ts : List (List Char)} {vs : List Value} :
    List.Forall₂ Spells ts vs ↔
      ∃ xs, List.Forall₂ Grammar.IsValue ts xs ∧ itemValues? xs = some vs := by
  simp only [itemValues?_eq_some_iff]
  exact forall₂_exists_iff

theorem forall₂_spellsMember_iff {ts : List (List Char)} {ms : Members} :
    List.Forall₂ SpellsMember ts ms ↔
      ∃ xs, List.Forall₂ (Grammar.IsMember Grammar.IsValue) ts xs ∧ memberValues? xs = some ms := by
  have hmember : ∀ t m, SpellsMember t m ↔ ∃ x, Grammar.IsMember Grammar.IsValue t x ∧
      text? x.1 = some m.1.toList ∧ x.2.value? = some m.2 := by
    rintro t ⟨key, v⟩
    constructor
    · rintro ⟨k, b, b', u, ⟨gs, cs, hk, hcs, rfl⟩, hb, hb', ⟨x, hx, hv⟩, rfl⟩
      exact ⟨(gs, x), .mk hk hb hb' hx, by rw [hcs, String.toList_ofList], hv⟩
    · rintro ⟨x, ⟨hk, hb, hb', hx⟩, hkey, hv⟩
      exact ⟨_, _, _, _, ⟨_, _, hk, hkey, String.ofList_toList.symm⟩, hb, hb', ⟨_, hx, hv⟩, rfl⟩
  simp only [memberValues?_eq_some_iff, ← forall₂_exists_iff]
  exact ⟨fun h => h.imp fun t m => (hmember t m).1, fun h => h.imp fun t m => (hmember t m).2⟩

theorem Numeral.value?_scalar {n : Numeral} {v : Value} (h : n.value? = some v) :
    (∃ w, v = .int w) ∨ ∃ x, v = .float x := by
  unfold Numeral.value? at h
  split at h
  · exact .inl ⟨_, (Option.some.inj h).symm⟩
  · obtain ⟨x, -, hx⟩ := Option.map_eq_some_iff.1 h
    exact .inr ⟨x, hx.symm⟩

/-- **A list** is spelled by its items. -/
theorem spells_arr_iff {t : List Char} {vs : List Value} :
    Spells t (.arr vs) ↔
      ∃ ts s, List.Forall₂ Spells ts vs ∧ Separated ts s ∧ t = '[' :: (s ++ [']']) := by
  simp only [forall₂_spells_iff]
  constructor
  · rintro ⟨x, hx, hv⟩
    cases hx with
    | list hs h =>
      obtain ⟨vs', hvs, hv⟩ := Option.map_eq_some_iff.1 hv
      cases hv
      exact ⟨_, _, ⟨_, h, hvs⟩, hs, rfl⟩
    | number => obtain ⟨_, hw⟩ | ⟨_, hx⟩ := Numeral.value?_scalar hv <;> contradiction
    | object => simp [Phrase.value?] at hv
    | string => simp [Phrase.value?] at hv
    | _ => cases hv
  · rintro ⟨ts, s, ⟨xs, hxs, hvs⟩, hs, rfl⟩
    exact ⟨_, .list hs hxs, by simp [Phrase.value?, hvs]⟩

/-- **An object** is spelled by its members. -/
theorem spells_obj_iff {t : List Char} {ms : Members} :
    Spells t (.obj ms) ↔
      ∃ ts s, List.Forall₂ SpellsMember ts ms ∧ Separated ts s ∧ t = '{' :: (s ++ ['}']) := by
  simp only [forall₂_spellsMember_iff]
  constructor
  · rintro ⟨x, hx, hv⟩
    cases hx with
    | object hs h =>
      obtain ⟨ms', hms, hv⟩ := Option.map_eq_some_iff.1 hv
      cases hv
      exact ⟨_, _, ⟨_, h, hms⟩, hs, rfl⟩
    | number => obtain ⟨_, hw⟩ | ⟨_, hx⟩ := Numeral.value?_scalar hv <;> contradiction
    | list => simp [Phrase.value?] at hv
    | string => simp [Phrase.value?] at hv
    | _ => cases hv
  · rintro ⟨ts, s, ⟨xs, hxs, hms⟩, hs, rfl⟩
    exact ⟨_, .object hs hxs, by simp [Phrase.value?, hms]⟩

end MusicCatalog.Json
