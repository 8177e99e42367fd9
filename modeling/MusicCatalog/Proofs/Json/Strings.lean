import MusicCatalog.Proofs.Json.Grammar
import MusicCatalog.Proofs.Json.Token

/-!
# Strings of the grammar

The reader of strings takes one character after another, and a pair of surrogates is one character.
The grammar has two glyphs for such a pair, so the characters stand between the two.

* `hexValue?_eq_some`, `shortEscape?_eq_some`, `codeUnit_eq_ok`: the parts of an escape;
* `SpellsChar`, `SpellsChars`, **`spellsChars_iff`**: the glyphs of one character, or of several;
* `stringTail_spellsChars`, `spells_of_stringTail`: the reader takes the spellings of characters, and
  nothing else;
* **`SpellsString.literal`**, **`spells_of_readString`**: strings that are read.
-/

namespace MusicCatalog.Json

open Grammar Text

/-! ## Escapes -/

theorem hexValue?_hexDigit :
    ∀ d < 16, hexValue? d.digitChar = some d ∧ hexValue? d.digitChar.toUpper = some d := by decide

theorem isHexDigit_of_code :
    ∀ n < 0x80, ∀ d ∈ hexValue? (Char.ofNat n), IsHexDigit (Char.ofNat n) d := by
  unfold IsHexDigit
  decide

/-- Hexadecimal digits have their values, and no other character has one. -/
theorem hexValue?_eq_some {c : Char} {d : Nat} : hexValue? c = some d ↔ IsHexDigit c d := by
  constructor
  · intro h
    have hle : ∀ e : Char, c ≤ e → c.toNat ≤ e.toNat := fun e he => UInt32.le_iff_toNat_le.1 he
    have hc : c.toNat < 0x80 := by
      unfold hexValue? at h
      split_ifs at h with h9 hf hF
      · exact (hle _ h9.2).trans_lt (by decide)
      · exact (hle _ hf.2).trans_lt (by decide)
      · exact (hle _ hF.2).trans_lt (by decide)
    have hcode := isHexDigit_of_code c.toNat hc d
    rw [Char.ofNat_toNat] at hcode
    exact hcode h
  · rintro ⟨hd, rfl | rfl⟩
    · exact (hexValue?_hexDigit d hd).1
    · exact (hexValue?_hexDigit d hd).2

theorem shortEscape?_of_mem : ∀ p ∈ shortEscapes, shortEscape? p.1 = some p.2 := by decide

theorem shortEscape?_eq_some {l c : Char} : shortEscape? l = some c ↔ (l, c) ∈ shortEscapes := by
  refine ⟨fun h => ?_, shortEscape?_of_mem (l, c)⟩
  unfold shortEscape? at h
  split_ifs at h with h1 h2 h3 h4 h5 h6 <;> cases h
  · rcases h1 with rfl | rfl | rfl <;> decide
  all_goals subst_vars; decide

/-- Four hexadecimal digits give their code unit. -/
theorem codeUnit_eq_ok {s rest : List Char} {n : Nat} :
    codeUnit s = .ok (n, rest) ↔
      ∃ t, IsGlyph ('\\' :: 'u' :: t) (.unit n) ∧ s = t ++ rest := by
  constructor
  · intro h
    unfold codeUnit at h
    split at h
    · next a b c d r =>
      split at h
      · next i j k l hi hj hk hl =>
        have hn : ((i * 16 + j) * 16 + k) * 16 + l = i * 0x1000 + j * 0x100 + k * 0x10 + l := by
          omega
        rw [hn] at h
        cases h
        rw [hexValue?_eq_some] at hi hj hk hl
        exact ⟨[a, b, c, d], .coded hi hj hk hl, rfl⟩
      · cases h
    · cases h
  · rintro ⟨t, ht, rfl⟩
    cases ht with
    | @coded a b c d i j k l ha hb hc hd =>
      rw [← hexValue?_eq_some] at ha hb hc hd
      simp only [List.cons_append, List.nil_append, codeUnit, ha, hb, hc, hd]
      congr 2
      omega

/-! ## Characters -/

/-- One character of a string, by one glyph or by two code units. -/
inductive SpellsChar : List Char → Char → Prop
  | plain {t : List Char} {c : Char} (h : IsGlyph t (.plain c)) : SpellsChar t c
  | unit {t : List Char} {n : Nat} (h : IsGlyph t (.unit n)) (hlow : isLowSurrogate n = false)
    (hhigh : isHighSurrogate n = false) : SpellsChar t (Char.ofNat n)
  | pair {t u : List Char} {n m : Nat} (h : IsGlyph t (.unit n)) (hhigh : isHighSurrogate n)
    (h' : IsGlyph u (.unit m)) (hlow : isLowSurrogate m) : SpellsChar (t ++ u) (pairedChar n m)

/-- The characters of a string one after another. -/
inductive SpellsChars : List Char → List Char → Prop
  | nil : SpellsChars [] []
  | cons {t s cs : List Char} {c : Char} (h : SpellsChar t c) (hs : SpellsChars s cs) :
    SpellsChars (t ++ s) (c :: cs)

theorem not_low_of_high {n : Nat} (h : isHighSurrogate n) : isLowSurrogate n = false := by
  simp only [isHighSurrogate, isLowSurrogate, Bool.and_eq_true, Bool.and_eq_false_iff,
    decide_eq_true_eq, decide_eq_false_iff_not] at h ⊢
  omega

theorem SpellsChars.glyphs {t cs : List Char} (h : SpellsChars t cs) :
    ∃ gs, IsGlyphs t gs ∧ text? gs = some cs := by
  induction h with
  | nil => exact ⟨[], .nil, rfl⟩
  | @cons t s cs c hc _ ih =>
    obtain ⟨gs, hgs, hcs⟩ := ih
    cases hc with
    | plain h => exact ⟨.plain c :: gs, .cons h hgs, by rw [text?, hcs]; rfl⟩
    | @unit _ n h hlow hhigh =>
      refine ⟨.unit n :: gs, .cons h hgs, ?_⟩
      rw [text?.eq_def]
      simp [hlow, hhigh, hcs]
    | @pair t u n m h hhigh h' hlow =>
      refine ⟨.unit n :: .unit m :: gs, ?_, ?_⟩
      · rw [List.append_assoc]
        exact .cons h (.cons h' hgs)
      · simp [text?, not_low_of_high hhigh, hhigh, hlow, hcs]

theorem spellsChars_of_glyphs {t cs : List Char} {gs : List Glyph} (h : IsGlyphs t gs)
    (hcs : text? gs = some cs) : SpellsChars t cs := by
  -- by the recursion of the meaning, which takes the two code units of a pair at once
  fun_induction text? gs generalizing t cs with
  | case1 =>
    cases h
    cases hcs
    exact .nil
  | case2 c gs ih =>
    obtain ⟨cs', hcs', rfl⟩ := Option.map_eq_some_iff.1 hcs
    cases h with
    | cons ht hs => exact .cons (.plain ht) (ih hs hcs')
  | case3 => cases hcs
  | case4 n _ hhigh m gs hlow ih =>
    obtain ⟨cs', hcs', rfl⟩ := Option.map_eq_some_iff.1 hcs
    cases h with
    | cons ht hs =>
      cases hs with
      | cons hu hs =>
        rw [← List.append_assoc]
        exact .cons (.pair ht hhigh hu hlow) (ih hs hcs')
  | case5 => cases hcs
  | case6 => cases hcs
  | case7 n gs hlow hhigh ih =>
    obtain ⟨cs', hcs', rfl⟩ := Option.map_eq_some_iff.1 hcs
    rw [Bool.not_eq_true] at hlow hhigh
    cases h with
    | cons ht hs => exact .cons (.unit ht hlow hhigh) (ih hs hcs')

/-- **Glyphs that mean something** are the spellings of characters. -/
theorem spellsChars_iff {t cs : List Char} :
    SpellsChars t cs ↔ ∃ gs, IsGlyphs t gs ∧ text? gs = some cs :=
  ⟨SpellsChars.glyphs, fun ⟨_, hgs, hcs⟩ => spellsChars_of_glyphs hgs hcs⟩

/-! ## Reading characters -/

theorem escapeTail_short {letter c : Char} (h : (letter, c) ∈ shortEscapes) (r : List Char) :
    escapeTail (letter :: r) = .ok (c, r) := by
  rw [escapeTail, shortEscape?_eq_some.2 h]

/-- A code unit after the letter of its escape. -/
theorem exists_unit {t : List Char} {n : Nat} (h : IsGlyph t (.unit n)) :
    ∃ u, t = '\\' :: 'u' :: u ∧ ∀ r, codeUnit (u ++ r) = .ok (n, r) := by
  cases h with
  | coded ha hb hc hd =>
    have h := IsGlyph.coded ha hb hc hd
    exact ⟨_, rfl, fun r => codeUnit_eq_ok.2 ⟨_, h, rfl⟩⟩

/-- A character is read from its spelling. -/
theorem stringTail_spellsChar {t : List Char} {c : Char} (h : SpellsChar t c)
    (before r : List Char) : stringTail before (t ++ r) = stringTail (c :: before) r := by
  cases h with
  | plain h =>
    cases h with
    | unescaped hc hq hb => exact stringTail_plain hq hb (Nat.not_lt.2 hc)
    | escaped h => exact stringTail_backslash (escapeTail_short h r)
  | @unit _ n h hlow hhigh =>
    obtain ⟨u, rfl, hu⟩ := exists_unit h
    refine stringTail_backslash ?_
    have hcoded : codedChar (u ++ r) = .ok (Char.ofNat n, r) := by
      rw [codedChar, hu r]
      change (if isLowSurrogate n then _ else if isHighSurrogate n then _ else _) = _
      rw [hlow, hhigh]
      rfl
    exact hcoded
  | @pair t u n m h hhigh h' hlow =>
    obtain ⟨v, rfl, hv⟩ := exists_unit h
    obtain ⟨w, rfl, hw⟩ := exists_unit h'
    rw [List.append_assoc]
    refine stringTail_backslash ?_
    have hsecond : lowSurrogate n ('\\' :: 'u' :: (w ++ r)) = .ok (pairedChar n m, r) := by
      change (codeUnit (w ++ r) >>= fun p => if isLowSurrogate p.1 then _ else _) = _
      rw [hw r]
      change (if isLowSurrogate m then _ else _) = _
      rw [if_pos hlow]
    have hcoded : codedChar (v ++ '\\' :: 'u' :: (w ++ r)) = .ok (pairedChar n m, r) := by
      rw [codedChar, hv]
      change (if isLowSurrogate n then _ else if isHighSurrogate n then _ else _) = _
      rw [not_low_of_high hhigh, hhigh]
      exact hsecond
    exact hcoded

theorem stringTail_spellsChars {t cs : List Char} (h : SpellsChars t cs) (before r : List Char) :
    stringTail before (t ++ '"' :: r) = .ok (before.reverse ++ cs, r) := by
  induction h generalizing before with
  | nil => rw [List.nil_append, stringTail_quote, List.append_nil]
  | cons hc _ ih =>
    rw [List.append_assoc, stringTail_spellsChar hc, ih, List.reverse_cons, List.append_assoc,
      List.singleton_append]

/-! ## Characters that were read -/

theorem spells_of_lowSurrogate {n : Nat} {c : Char} {s rest : List Char}
    (h : lowSurrogate n s = .ok (c, rest)) :
    ∃ t m, IsGlyph t (.unit m) ∧ isLowSurrogate m ∧ c = pairedChar n m ∧ s = t ++ rest := by
  unfold lowSurrogate at h
  split at h
  · cases h
  · split_ifs at h with hc
    split at h
    · cases h
    · split_ifs at h with hd
      obtain ⟨⟨m, r⟩, hm, hpair⟩ := bind_eq_ok.1 h
      obtain ⟨u, hu, rfl⟩ := codeUnit_eq_ok.1 hm
      dsimp only at hpair
      split_ifs at hpair with hlow
      obtain ⟨rfl, rfl⟩ := Prod.mk.inj (Except.ok.inj hpair)
      exact ⟨_, m, hu, hlow, rfl, by rw [hc, hd]; rfl⟩

theorem spells_of_escapeTail {c : Char} {s rest : List Char} (h : escapeTail s = .ok (c, rest)) :
    ∃ t, SpellsChar t c ∧ '\\' :: s = t ++ rest := by
  unfold escapeTail at h
  split at h
  · cases h
  · next l r =>
    split at h
    · next x hx =>
      cases h
      exact ⟨_, .plain (.escaped (shortEscape?_eq_some.1 hx)), rfl⟩
    · split_ifs at h with hu
      obtain ⟨⟨n, r'⟩, hn, hchar⟩ := bind_eq_ok.1 h
      obtain ⟨u, hglyph, rfl⟩ := codeUnit_eq_ok.1 hn
      dsimp only at hchar
      split_ifs at hchar with hlow hhigh
      · obtain ⟨t, m, ht, hm, hc, rfl⟩ := spells_of_lowSurrogate hchar
        rw [hc, hu]
        exact ⟨_, .pair hglyph hhigh ht hm, by rw [List.append_assoc]; rfl⟩
      · obtain ⟨rfl, rfl⟩ := Prod.mk.inj (Except.ok.inj hchar)
        rw [Bool.not_eq_true] at hlow hhigh
        rw [hu]
        exact ⟨_, .unit hglyph hlow hhigh, rfl⟩

theorem spells_of_stringTail {before s cs rest : List Char}
    (h : stringTail before s = .ok (cs, rest)) :
    ∃ t ds, SpellsChars t ds ∧ cs = before.reverse ++ ds ∧ s = t ++ '"' :: rest := by
  fun_induction stringTail before s with
  | case1 => cases h
  | case2 before r =>
    cases h
    exact ⟨[], [], .nil, (List.append_nil _).symm, rfl⟩
  | case3 => cases h
  | case4 before r x r' hx _ _ ih =>
    obtain ⟨u, hu, hs⟩ := spells_of_escapeTail hx
    obtain ⟨t, ds, ht, rfl, rfl⟩ := ih h
    refine ⟨u ++ t, x :: ds, .cons hu ht, ?_, ?_⟩
    · rw [List.reverse_cons, List.append_assoc, List.singleton_append]
    · rw [hs, List.append_assoc]
  | case5 => cases h
  | case6 before c r hq hb hc ih =>
    obtain ⟨t, ds, ht, rfl, rfl⟩ := ih h
    refine ⟨c :: t, c :: ds, .cons (.plain (.unescaped (Nat.not_lt.1 hc) hq hb)) ht, ?_, rfl⟩
    rw [List.reverse_cons, List.append_assoc, List.singleton_append]

/-! ## Strings -/

theorem spellsString_iff {t : List Char} {k : String} :
    SpellsString t k ↔ ∃ u, SpellsChars u k.toList ∧ t = '"' :: (u ++ ['"']) := by
  simp only [spellsChars_iff]
  constructor
  · rintro ⟨gs, cs, ⟨hgs⟩, hcs, rfl⟩
    rw [String.toList_ofList]
    exact ⟨_, ⟨gs, hgs, hcs⟩, rfl⟩
  · rintro ⟨u, ⟨gs, hgs, hcs⟩, rfl⟩
    exact ⟨gs, k.toList, .mk hgs, hcs, String.ofList_toList.symm⟩

/-- **A string of the grammar** is a literal of what it means. -/
theorem SpellsString.literal {t : List Char} {k : String} (h : SpellsString t k) : Literal t k := by
  obtain ⟨u, hu, rfl⟩ := spellsString_iff.1 h
  refine ⟨u ++ ['"'], rfl, fun rest => ?_⟩
  rw [readString, List.append_assoc, List.singleton_append, stringTail_spellsChars hu]
  change Except.ok (String.ofList k.toList, rest) = _
  rw [String.ofList_toList]

/-- **A string that is read** was spelled. -/
theorem spells_of_readString {k : String} {s rest : List Char}
    (h : readString s = .ok (k, rest)) : ∃ t, SpellsString ('"' :: t) k ∧ s = t ++ rest := by
  obtain ⟨⟨cs, r⟩, hcs, h⟩ := bind_eq_ok.1 h
  cases h
  obtain ⟨t, ds, ht, rfl, rfl⟩ := spells_of_stringTail hcs
  refine ⟨t ++ ['"'], spellsString_iff.2 ⟨t, ?_, rfl⟩, by simp⟩
  rwa [String.toList_ofList]

end MusicCatalog.Json
