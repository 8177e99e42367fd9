import Mathlib.Data.List.Infix
import Mathlib.Data.List.TakeWhile
import MusicCatalog.Proofs.Ascii
import MusicCatalog.Text.Lowercase

/-!
# Lowercase forms of parts of a text

The lowercase form of a text is made up of the forms of its parts, and the form of a part is its own
but for its capital sigmas, for which it matters what stands around the part.

* `lowerWithin`, `lowerWithin_append`, `lowerWithin_infix`: the form of a part in its surroundings;
* `lowerWithin_congr`: only the places of the sigmas count;
* `lowerWithin_ascii`: ASCII characters are lowered one by one, anywhere;
* `nearest?`, `Decided`, `endsWord_append`: when the characters around a sigma decide whether it ends a
  word, whatever comes further away;
* `KeepsSigmas`, `lowerList_infix`: an occurrence of a text whose form occurs with it;
* **`lowerList_infix_iff`**: the texts whose form occurs wherever they occur themselves.
-/

namespace MusicCatalog.Text

/-! ## Parts -/

/-- The lowercase form of a part of a text between the characters `before`, nearest first, and
`after`. -/
def lowerWithin (before after : List Char) : List Char → List Char
  | [] => []
  | c :: r =>
    (if c = 'Σ' then [if endsWord before (r ++ after) then 'ς' else 'σ'] else lowerChar c)
      ++ lowerWithin (c :: before) after r

theorem lowerAfter_eq (before cs : List Char) : lowerAfter before cs = lowerWithin before [] cs := by
  induction cs generalizing before with
  | nil => rfl
  | cons c r ih => rw [lowerAfter, lowerWithin, ih, List.append_nil]

theorem lowerList_eq (cs : List Char) : lowerList cs = lowerWithin [] [] cs := lowerAfter_eq [] cs

theorem lowerWithin_append (before after xs ys : List Char) :
    lowerWithin before after (xs ++ ys) =
      lowerWithin before (ys ++ after) xs ++ lowerWithin (xs.reverse ++ before) after ys := by
  induction xs generalizing before with
  | nil => rfl
  | cons x xs ih => simp [lowerWithin, ih]

/-- The form of a part occurs in the form of the whole. -/
theorem lowerWithin_infix (before part after : List Char) :
    lowerWithin before.reverse after part <:+: lowerList (before ++ part ++ after) := by
  rw [lowerList_eq, lowerWithin_append, lowerWithin_append]
  simp only [List.append_nil]
  exact List.infix_append ..

theorem lowerWithin_sigma (before after xs ys : List Char) :
    lowerWithin before after (xs ++ 'Σ' :: ys) =
      lowerWithin before ('Σ' :: ys ++ after) xs ++
        (if endsWord (xs.reverse ++ before) (ys ++ after) then 'ς' else 'σ') ::
          lowerWithin ('Σ' :: (xs.reverse ++ before)) after ys := by
  rw [lowerWithin_append, lowerWithin, if_pos rfl]
  rfl

/-- Surroundings matter for capital sigmas only. -/
theorem lowerWithin_congr {before before' after after' cs : List Char}
    (h : ∀ xs ys, cs = xs ++ 'Σ' :: ys → endsWord (xs.reverse ++ before) (ys ++ after) =
      endsWord (xs.reverse ++ before') (ys ++ after')) :
    lowerWithin before after cs = lowerWithin before' after' cs := by
  induction cs generalizing before before' with
  | nil => rfl
  | cons c r ih =>
    have hrest : lowerWithin (c :: before) after r = lowerWithin (c :: before') after' r := by
      apply ih
      intro xs ys hr
      simpa using h (c :: xs) ys (by rw [hr, List.cons_append])
    rw [lowerWithin, lowerWithin, hrest]
    by_cases hc : c = 'Σ'
    · have hends : endsWord before (r ++ after) = endsWord before' (r ++ after') := by
        simpa using h [] r (by rw [hc, List.nil_append])
      rw [hends]
    · rw [if_neg hc, if_neg hc]

/-- ASCII characters are lowered one by one. -/
theorem lowerWithin_ascii {cs : List Char} (h : Ascii cs) (before after : List Char) :
    lowerWithin before after cs = cs.map Char.toLower := by
  induction cs generalizing before with
  | nil => rfl
  | cons c r ih =>
    obtain ⟨hc, hr⟩ := List.forall_mem_cons.1 h
    have hsigma : c ≠ 'Σ' := by
      rintro rfl
      exact absurd hc (by decide)
    rw [lowerWithin, if_neg hsigma, lowerChar, if_pos hc, ih hr]
    rfl

/-! ## Surroundings of a sigma -/

/-- The nearest character that is not passed over. -/
def nearest? (cs : List Char) : Option Char := cs.find? fun c => !caseIgnorable.has c

theorem nearest?_append (xs ys : List Char) :
    nearest? (xs ++ ys) = (nearest? xs).or (nearest? ys) := List.find?_append

theorem not_ignorable_sigma : caseIgnorable.has 'Σ' = false := by decide +kernel

theorem nearest?_sigma (xs ys : List Char) :
    nearest? (xs ++ 'Σ' :: ys) = (nearest? xs).or (some 'Σ') := by
  rw [nearest?_append, nearest?, nearest?, List.find?_cons, not_ignorable_sigma]
  rfl

theorem not_mem_of_nearest? {cs : List Char} (h : nearest? cs = none) : 'Σ' ∉ cs := by
  intro hmem
  have hignorable := List.find?_eq_none.1 h 'Σ' hmem
  rw [not_ignorable_sigma] at hignorable
  exact hignorable rfl

theorem meetsCased_eq (cs : List Char) : meetsCased cs = (nearest? cs).any cased.has := by
  rw [meetsCased, nearest?, List.find?_not_eq_head?_dropWhile]
  cases cs.dropWhile caseIgnorable.has <;> rfl

theorem meetsCased_append (xs ys : List Char) :
    meetsCased (xs ++ ys) = if (nearest? xs).isSome then meetsCased xs else meetsCased ys := by
  simp only [meetsCased_eq, nearest?_append]
  cases nearest? xs <;> rfl

/-- Behind a sigma nothing matters for what is before it. -/
theorem meetsCased_sigma (xs ys ys' : List Char) :
    meetsCased (xs ++ 'Σ' :: ys) = meetsCased (xs ++ 'Σ' :: ys') := by
  rw [meetsCased_eq, meetsCased_eq, nearest?_sigma, nearest?_sigma]

/-- What stands around a capital sigma decides whether it is at the end of a word, whatever comes
further away: a letter follows, or something else than a letter comes before, or there is something on
both sides. Characters that are passed over do not count. -/
def Decided (before after : List Char) : Prop :=
  (∃ c, nearest? after = some c ∧ cased.has c) ∨
    (∃ c, nearest? before = some c ∧ ¬ cased.has c) ∨
    (nearest? before).isSome ∧ (nearest? after).isSome

theorem endsWord_append {before after : List Char} (h : Decided before after)
    (before' after' : List Char) :
    endsWord (before ++ before') (after ++ after') = endsWord before after := by
  unfold endsWord
  rw [meetsCased_append, meetsCased_append, meetsCased_eq before, meetsCased_eq after]
  obtain ⟨c, hc, hcased⟩ | ⟨c, hc, hcased⟩ | ⟨hbefore, hafter⟩ := h
  · simp [hc, hcased]
  · simp [hc, hcased]
  · simp [hbefore, hafter]

/-- Otherwise the last word is open at its end or the first one at its beginning. -/
theorem open_of_not_decided {before after : List Char} (h : ¬ Decided before after) :
    (meetsCased before ∧ nearest? after = none) ∨
      (nearest? before = none ∧ ¬ meetsCased after) := by
  rw [meetsCased_eq, meetsCased_eq]
  unfold Decided at h
  cases hbefore : nearest? before <;> cases hafter : nearest? after <;> simp_all

/-! ## Occurrences -/

/-- A part has its sigmas at the ends of the same words, whether it stands between other characters or
by itself. -/
def KeepsSigmas (before part after : List Char) : Prop :=
  ∀ xs ys, part = xs ++ 'Σ' :: ys →
    endsWord (xs.reverse ++ before.reverse) (ys ++ after) = endsWord xs.reverse ys

/-- A part whose sigmas are kept has its own form in the form of the whole. -/
theorem lowerList_infix {before part after : List Char} (h : KeepsSigmas before part after) :
    lowerList part <:+: lowerList (before ++ part ++ after) := by
  have hform : lowerWithin before.reverse after part = lowerList part := by
    rw [lowerList_eq]
    apply lowerWithin_congr
    intro xs ys hpart
    rw [List.append_nil, List.append_nil]
    exact h xs ys hpart
  rw [← hform]
  exact lowerWithin_infix before part after

/-- All capital sigmas of a text are decided by what stands around them in this text. -/
def SigmasDecided (cs : List Char) : Prop := ∀ xs ys, cs = xs ++ 'Σ' :: ys → Decided xs.reverse ys

theorem SigmasDecided.keepsSigmas {part : List Char} (h : SigmasDecided part)
    (before after : List Char) : KeepsSigmas before part after := by
  intro xs ys hpart
  exact endsWord_append (h xs ys hpart) before.reverse after

/-- Further away, what is before or behind a sigma of a text does not matter for the others. -/
theorem lowerWithin_before_sigma (before xs ys ys' : List Char) :
    lowerWithin before ('Σ' :: ys) xs = lowerWithin before ('Σ' :: ys') xs := by
  apply lowerWithin_congr
  intro us vs _
  rw [endsWord, endsWord, meetsCased_sigma vs ys ys']

theorem lowerWithin_behind_sigma (xs xs' after ys : List Char) :
    lowerWithin ('Σ' :: xs) after ys = lowerWithin ('Σ' :: xs') after ys := by
  apply lowerWithin_congr
  intro us vs _
  rw [endsWord, endsWord, meetsCased_sigma us.reverse xs xs']

theorem lowerWithin_of_not_mem {cs : List Char} (h : 'Σ' ∉ cs)
    (before before' after after' : List Char) :
    lowerWithin before after cs = lowerWithin before' after' cs := by
  apply lowerWithin_congr
  rintro us vs rfl
  exact absurd (by simp) h

/-- A text does not occur in another that has one character of it less. -/
theorem not_infix_exchanged {c d : Char} {xs ys before after : List Char} (hcd : d ≠ c)
    (hbefore : c ∉ before) (hafter : c ∉ after) :
    ¬ xs ++ c :: ys <:+: before ++ (xs ++ d :: ys) ++ after := by
  intro h
  have hcount := h.sublist.count_le c
  simp only [List.count_append, List.count_cons_self, List.count_cons_of_ne hcd,
    List.count_eq_zero.2 hbefore, List.count_eq_zero.2 hafter] at hcount
  omega

theorem meetsCased_a (cs : List Char) : meetsCased ('a' :: cs) = true := by
  have hletter : nearest? ['a'] = some 'a' := by decide +kernel
  rw [meetsCased_eq, ← List.singleton_append, nearest?_append, hletter]
  change cased.has 'a' = true
  decide +kernel

theorem lowerWithin_a (before after : List Char) : lowerWithin before after ['a'] = ['a'] := by
  rw [lowerWithin_ascii (ascii_of_all (by decide))]
  rfl

/-- If only ignorable characters follow a sigma behind a letter, it is final until a letter comes. -/
theorem not_infix_of_open_end {xs ys : List Char} (hxs : meetsCased xs.reverse)
    (hys : nearest? ys = none) :
    ¬ lowerList (xs ++ 'Σ' :: ys) <:+: lowerList (xs ++ 'Σ' :: ys ++ ['a']) := by
  have halone : endsWord xs.reverse ys = true := by
    rw [endsWord, meetsCased_eq ys, hys, hxs]
    rfl
  have hfollowed : endsWord xs.reverse (ys ++ ['a']) = false := by
    rw [endsWord, meetsCased_append, hys, meetsCased_a, hxs]
    rfl
  have hform : lowerList (xs ++ 'Σ' :: ys) =
      lowerWithin [] ('Σ' :: ys) xs ++ 'ς' :: lowerWithin ('Σ' :: xs.reverse) [] ys := by
    rw [lowerList_eq, lowerWithin_sigma, List.append_nil, List.append_nil, List.append_nil, halone]
    rfl
  have hform' : lowerList (xs ++ 'Σ' :: ys ++ ['a']) = [] ++ (lowerWithin [] ('Σ' :: ys) xs ++
      'σ' :: lowerWithin ('Σ' :: xs.reverse) [] ys) ++ ['a'] := by
    rw [lowerList_eq, lowerWithin_append, lowerWithin_a, lowerWithin_sigma, List.append_nil,
      List.append_nil, hfollowed, List.cons_append, lowerWithin_before_sigma [] xs _ ys,
      lowerWithin_of_not_mem (not_mem_of_nearest? hys) _ ('Σ' :: xs.reverse) _ []]
    rfl
  rw [hform, hform']
  exact not_infix_exchanged (by decide) (by simp) (by decide)

/-- If only ignorable characters come before a sigma and no letter follows it, it is final as soon as
a letter comes before it. -/
theorem not_infix_of_open_beginning {xs ys : List Char} (hxs : nearest? xs.reverse = none)
    (hys : meetsCased ys = false) :
    ¬ lowerList (xs ++ 'Σ' :: ys) <:+: lowerList ('a' :: (xs ++ 'Σ' :: ys)) := by
  have halone : endsWord xs.reverse ys = false := by
    rw [endsWord, meetsCased_eq xs.reverse, hxs]
    rfl
  have hpreceded : endsWord (xs.reverse ++ ['a']) ys = true := by
    rw [endsWord, meetsCased_append, hxs, meetsCased_a, hys]
    rfl
  have hform : lowerList (xs ++ 'Σ' :: ys) =
      lowerWithin [] ('Σ' :: ys) xs ++ 'σ' :: lowerWithin ('Σ' :: xs.reverse) [] ys := by
    rw [lowerList_eq, lowerWithin_sigma, List.append_nil, List.append_nil, List.append_nil, halone]
    rfl
  have hform' : lowerList ('a' :: (xs ++ 'Σ' :: ys)) = ['a'] ++ (lowerWithin [] ('Σ' :: ys) xs ++
      'ς' :: lowerWithin ('Σ' :: xs.reverse) [] ys) ++ [] := by
    have hmem : 'Σ' ∉ xs := by simpa using not_mem_of_nearest? hxs
    rw [lowerList_eq, ← List.singleton_append, lowerWithin_append, lowerWithin_a, lowerWithin_sigma]
    simp only [List.append_nil, List.reverse_singleton]
    rw [hpreceded, lowerWithin_of_not_mem hmem _ [] _ ('Σ' :: ys),
      lowerWithin_behind_sigma _ xs.reverse]
    rfl
  rw [hform, hform']
  exact not_infix_exchanged (by decide) (by decide) (by simp)

/-- **The lowercase form of a text occurs wherever the text occurs** exactly if all its capital sigmas
are decided. -/
theorem lowerList_infix_iff (part : List Char) :
    (∀ whole, part <:+: whole → lowerList part <:+: lowerList whole) ↔ SigmasDecided part := by
  constructor
  · intro h xs ys hpart
    by_contra hopen
    rcases open_of_not_decided hopen with ⟨hxs, hys⟩ | ⟨hxs, hys⟩
    · apply not_infix_of_open_end hxs hys
      rw [← hpart]
      exact h _ (List.prefix_append part ['a']).isInfix
    · apply not_infix_of_open_beginning hxs (Bool.eq_false_iff.2 hys)
      rw [← hpart]
      exact h _ (List.suffix_cons 'a' part).isInfix
  · rintro h _ ⟨before, after, rfl⟩
    exact lowerList_infix (h.keepsSigmas before after)

end MusicCatalog.Text
