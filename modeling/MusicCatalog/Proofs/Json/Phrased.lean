import MusicCatalog.Proofs.Decimal.Spelling
import MusicCatalog.Proofs.Json.Strings

/-!
# Written text is in the grammar

A layout whose gaps are blank puts tokens together as the grammar has them. So what is written is a
phrase, and means what was written if that has no floating numbers; these may be written with fewer
digits than they would need to be read back.

* `Layout.Blank`: there are only blanks between the tokens;
* `spellsString_quote`, `isNumber_spell`: strings and integers;
* `Layout.Blank.isValue_list`, **`Layout.Blank.isValue_object`**: lists and objects;
* **`exists_isValue_write`**, `spells_write`: any value.
-/

namespace MusicCatalog.Json

open Grammar Decimal

variable {ι : Type}

/-! ## Layouts -/

/-- A layout puts nothing but blanks between tokens. -/
structure Layout.Blank (l : Layout) : Prop where
  gap : ∀ level, Blanks (l.gap level)
  afterColon : Blanks l.afterColon

theorem Layout.blank_compact : Layout.compact.Blank := ⟨fun _ => blanks_nil, blanks_nil⟩

theorem Layout.blank_indented : Layout.indented.Blank := by
  refine ⟨fun level c hc => ?_, fun c hc => ?_⟩
  · rcases List.mem_cons.1 hc with rfl | hc
    · rfl
    · rw [List.eq_of_mem_replicate hc]
      rfl
  · rw [List.mem_singleton.1 hc]
    rfl

theorem Layout.exists_enclose (l : Layout) (opening closing : Char) (level : Nat)
    (ts : List (List Char)) : ∃ r, l.enclose opening closing level ts = opening :: r := by
  cases ts <;> exact ⟨_, rfl⟩

namespace Layout.Blank

variable {l : Layout} (hl : l.Blank)

include hl

theorem separated_more {b b' m : List Char} (hb : Blanks b) (hb' : Blanks b') (level : Nat)
    (ms : List (List Char)) : Separated (m :: ms) (b ++ (m ++ (l.more level ms ++ b'))) := by
  induction ms generalizing b m with
  | nil => exact ⟨b, b', hb, hb', rfl⟩
  | cons n ms ih =>
    refine ⟨b, [], _, hb, blanks_nil, ih (hl.gap level), ?_⟩
    simp only [Layout.more, List.append_assoc, List.cons_append, List.nil_append]

/-- Enclosed members are separated. -/
theorem separated_enclose (opening closing : Char) (level : Nat) (ts : List (List Char)) :
    ∃ s, l.enclose opening closing level ts = opening :: (s ++ [closing]) ∧ Separated ts s := by
  cases ts with
  | nil => exact ⟨[], rfl, blanks_nil⟩
  | cons m ms =>
    refine ⟨_, ?_, hl.separated_more (hl.gap (level + 1)) (hl.gap level) (level + 1) ms⟩
    simp only [Layout.enclose, List.append_assoc, List.cons_append]

end Layout.Blank

/-! ## Tokens -/

theorem spellsChar_escape (c : Char) : SpellsChar (escape c) c := by
  unfold escape
  split_ifs with hq hb h8 hc hn hr ht hcontrol
  · subst hq
    exact .plain (.escaped (by decide))
  · subst hb
    exact .plain (.escaped (by decide))
  · subst h8
    exact .plain (.escaped (by decide))
  · subst hc
    exact .plain (.escaped (by decide))
  · subst hn
    exact .plain (.escaped (by decide))
  · subst hr
    exact .plain (.escaped (by decide))
  · subst ht
    exact .plain (.escaped (by decide))
  · have hzero : IsHexDigit '0' 0 := ⟨by decide, .inl rfl⟩
    have hhigh : IsHexDigit (c.toNat / 16).digitChar (c.toNat / 16) := ⟨by omega, .inl rfl⟩
    have hlow : IsHexDigit (c.toNat % 16).digitChar (c.toNat % 16) := ⟨by omega, .inl rfl⟩
    have hglyph := IsGlyph.coded hzero hzero hhigh hlow
    have hcode : 0 * 0x1000 + 0 * 0x100 + c.toNat / 16 * 0x10 + c.toNat % 16 = c.toNat := by omega
    rw [hcode] at hglyph
    have hls : Text.isLowSurrogate c.toNat = false := by
      simp only [Text.isLowSurrogate, Bool.and_eq_false_iff, decide_eq_false_iff_not]
      omega
    have hhs : Text.isHighSurrogate c.toNat = false := by
      simp only [Text.isHighSurrogate, Bool.and_eq_false_iff, decide_eq_false_iff_not]
      omega
    have hspells := SpellsChar.unit hglyph hls hhs
    rwa [Char.ofNat_toNat] at hspells
  · exact .plain (.unescaped (Nat.not_lt.1 hcontrol) hq hb)

theorem spellsChars_flatMap_escape (cs : List Char) : SpellsChars (cs.flatMap escape) cs := by
  induction cs with
  | nil => exact .nil
  | cons c cs ih =>
    rw [List.flatMap_cons]
    exact .cons (spellsChar_escape c) ih

/-- A written string is spelled. -/
theorem spellsString_quote (k : String) : SpellsString (quote k) k :=
  spellsString_iff.2 ⟨_, spellsChars_flatMap_escape k.toList, rfl⟩

/-- **The written form of a string is a literal of it.** -/
theorem isWhole_spellNat (n : Nat) : IsWhole (spellNat n) := by
  refine ⟨digits_toDigits n, fun h => ?_⟩
  rcases Nat.eq_zero_or_pos n with rfl | hpos
  · rfl
  · exact absurd h (head?_spellNat_ne hpos)

/-- A written natural number is a numeral. -/
theorem isNumber_spellNat (n : Nat) : IsNumber (spellNat n) ⟨false, spellNat n, none, none⟩ := by
  have h : IsUnsigned (spellNat n ++ ([] ++ [])) ⟨false, spellNat n, none, none⟩ :=
    .mk (isWhole_spellNat n) .absent .absent
  rw [List.append_nil, List.append_nil] at h
  exact .unsigned h rfl

/-- A written integer is a numeral, and means that integer. -/
theorem isNumber_spell (n : Whole) : ∃ x, IsNumber n.spell x ∧ x.value? = some (.int n) := by
  have hunsigned : IsUnsigned (spellNat n.toInt.natAbs ++ ([] ++ []))
      ⟨decide (n.toInt < 0), spellNat n.toInt.natAbs, none, none⟩ :=
    .mk (isWhole_spellNat _) .absent .absent
  rw [List.append_nil, List.append_nil] at hunsigned
  have hdigits : Nat.ofDigitChars 10 (spellNat n.toInt.natAbs) 0 = n.toInt.natAbs :=
    Nat.ofDigitChars_ten_toDigits
  refine ⟨⟨decide (n.toInt < 0), spellNat n.toInt.natAbs, none, none⟩, ?_, ?_⟩
  · rw [Whole.spell]
    split_ifs with hneg
    · exact .minus hunsigned (decide_eq_true hneg)
    · exact .unsigned hunsigned (decide_eq_false hneg)
  · have hsign : (if n.toInt < 0 then -(n.toInt.natAbs : Int) else n.toInt.natAbs) = n.toInt := by
      split_ifs <;> omega
    have hzero : ¬ (n.toInt < 0 ∧ n.toInt.natAbs = 0) := by omega
    simp only [Numeral.value?, Numeral.whole?, hdigits, Option.isSome_none, Bool.false_eq_true,
      false_or, decide_eq_true_eq, hzero, ↓reduceIte, hsign, ofInt?_toInt]

/-! ## Lists and objects -/

namespace Layout.Blank

variable {l : Layout} (hl : l.Blank) {text : ι → List Char} {Q : ι → Phrase → Prop} {xs : List ι}

include hl

/-- Written phrases between brackets are a list. -/
theorem isValue_list (h : ∀ i ∈ xs, ∃ x, IsValue (text i) x ∧ Q i x) (level : Nat) :
    ∃ ys, IsValue (l.list level (xs.map text)) (.list ys) ∧ List.Forall₂ Q xs ys := by
  have hphrases : ∃ ys, List.Forall₂ IsValue (xs.map text) ys ∧ List.Forall₂ Q xs ys := by
    induction xs with
    | nil => exact ⟨[], .nil, .nil⟩
    | cons i xs ih =>
      obtain ⟨⟨x, hx, hQ⟩, hxs⟩ := List.forall_mem_cons.1 h
      obtain ⟨ys, hys, hQs⟩ := ih hxs
      exact ⟨x :: ys, .cons hx hys, .cons hQ hQs⟩
  obtain ⟨ys, hys, hQs⟩ := hphrases
  obtain ⟨s, hs, hsep⟩ := hl.separated_enclose '[' ']' level (xs.map text)
  refine ⟨ys, ?_, hQs⟩
  rw [Layout.list, hs]
  exact .list hsep hys

/-- A written key with a written phrase is a member. -/
theorem isMember_member (key : String) {t : List Char} {x : Phrase} (h : IsValue t x) :
    ∃ gs, IsMember IsValue (l.member key t) (gs, x) ∧ text? gs = some key.toList := by
  obtain ⟨gs, cs, hgs, hcs, rfl⟩ := spellsString_quote key
  refine ⟨gs, ?_, by rw [hcs, String.toList_ofList]⟩
  rw [Layout.member, List.append_assoc, List.cons_append]
  exact .mk (b := []) hgs blanks_nil hl.afterColon h

/-- **Written members between braces** are an object. -/
theorem isValue_object (key : ι → String) (h : ∀ i ∈ xs, ∃ x, IsValue (text i) x ∧ Q i x)
    (level : Nat) :
    ∃ ms, IsValue (l.object level (xs.map fun i => (key i, text i))) (.object ms) ∧
      List.Forall₂ (fun i m => text? m.1 = some (key i).toList ∧ Q i m.2) xs ms := by
  have hmembers : ∃ ms, List.Forall₂ (IsMember IsValue) (xs.map fun i => l.member (key i) (text i)) ms ∧
      List.Forall₂ (fun i m => text? m.1 = some (key i).toList ∧ Q i m.2) xs ms := by
    induction xs with
    | nil => exact ⟨[], .nil, .nil⟩
    | cons i xs ih =>
      obtain ⟨⟨x, hx, hQ⟩, hxs⟩ := List.forall_mem_cons.1 h
      obtain ⟨ms, hms, hQs⟩ := ih hxs
      obtain ⟨gs, hgs, hkey⟩ := hl.isMember_member (key i) hx
      exact ⟨(gs, x) :: ms, .cons hgs hms, .cons ⟨hkey, hQ⟩ hQs⟩
  obtain ⟨ms, hms, hQs⟩ := hmembers
  obtain ⟨s, hs, hsep⟩ := hl.separated_enclose '{' '}' level
    (xs.map fun i => l.member (key i) (text i))
  refine ⟨ms, ?_, hQs⟩
  rw [Layout.object, List.map_map]
  change IsValue (l.enclose '{' '}' level (xs.map fun i => l.member (key i) (text i))) _
  rw [hs]
  exact .object hsep hms

end Layout.Blank

/-! ## Any value -/

theorem itemValues?_eq_some {vs : List Value} {xs : List Phrase}
    (h : List.Forall₂ (fun v x => v.FloatFree → x.value? = some v) vs xs)
    (hfree : ItemsFloatFree vs) : itemValues? xs = some vs := by
  have hboth := (List.forall₂_and_left vs xs).2 ⟨itemsFloatFree_iff.1 hfree, h⟩
  exact itemValues?_eq_some_iff.2 (hboth.flip.imp fun _ _ h => h.2 h.1)

theorem memberValues?_eq_some {ms : Members} {xs : List (List Glyph × Phrase)}
    (h : List.Forall₂ (fun m x => text? x.1 = some m.1.toList ∧
      (m.2.FloatFree → x.2.value? = some m.2)) ms xs)
    (hfree : MembersFloatFree ms) : memberValues? xs = some ms := by
  have hboth := (List.forall₂_and_left ms xs).2 ⟨membersFloatFree_iff.1 hfree, h⟩
  exact memberValues?_eq_some_iff.2 (hboth.flip.imp fun _ _ h => ⟨h.2.1, h.2.2 h.1⟩)

/-- **A written value** is in the grammar, and means that value if it has no floating numbers. -/
theorem exists_isValue_write {l : Layout} (hl : l.Blank) (v : Value) (level : Nat) :
    ∃ x, IsValue (v.write l level) x ∧ (v.FloatFree → x.value? = some v) := by
  induction v using Value.induction generalizing level with
  | null => exact ⟨.null, .null, fun _ => rfl⟩
  | bool b =>
    cases b with
    | true => exact ⟨.bool true, .yes, fun _ => rfl⟩
    | false => exact ⟨.bool false, .no, fun _ => rfl⟩
  | int n =>
    obtain ⟨x, hx, hv⟩ := isNumber_spell n
    exact ⟨.number x, .number hx, fun _ => by rw [Phrase.value?, hv]⟩
  | float f =>
    obtain ⟨x, hx⟩ := f.isNumber_spell
    exact ⟨.number x, .number hx, fun h => h.elim⟩
  | str s =>
    obtain ⟨gs, cs, hgs, hcs, hs⟩ := spellsString_quote s
    exact ⟨.string gs, .string hgs, fun _ => by simp [Phrase.value?, hcs, hs]⟩
  | arr items ih =>
    obtain ⟨ys, hys, hvalues⟩ := hl.isValue_list (fun v hv => ih v hv (level + 1)) level
    rw [Value.write, writeItems_eq_map]
    refine ⟨.list ys, hys, fun hfree => ?_⟩
    rw [Phrase.value?, itemValues?_eq_some hvalues hfree]
    rfl
  | obj members ih =>
    obtain ⟨ms, hms, hvalues⟩ :=
      hl.isValue_object Prod.fst (fun m hm => ih m hm (level + 1)) level
    rw [Value.write, writeMembers_eq_map]
    refine ⟨.object ms, hms, fun hfree => ?_⟩
    rw [Phrase.value?, memberValues?_eq_some hvalues hfree]
    rfl

theorem spells_write {l : Layout} (hl : l.Blank) {v : Value} (hv : v.FloatFree) (level : Nat) :
    Spells (v.write l level) v := by
  obtain ⟨x, hx, hvalue⟩ := exists_isValue_write hl v level
  exact ⟨x, hx, hvalue hv⟩

end MusicCatalog.Json
