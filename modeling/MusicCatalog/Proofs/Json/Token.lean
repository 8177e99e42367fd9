import MusicCatalog.Json.Layout
import MusicCatalog.Proofs.Json.Outcome

/-!
# Tokens

* `stringTail_quote`, `stringTail_backslash`, `stringTail_plain`: one round of the reader of strings;
* `ofDigitChars_cons_digitValue`, `le_ofDigitChars`: the number of some digits;
* **`head?_spellNat_ne`**: the digits of a number;
* `readScalar_digit`: a scalar that begins with a digit.
-/

namespace MusicCatalog.Json

/-! ## Strings -/

theorem stringTail_quote (before r : List Char) :
    stringTail before ('"' :: r) = .ok (before.reverse, r) := by
  rw [stringTail]
  rfl

theorem stringTail_backslash {before r rest : List Char} {x : Char}
    (h : escapeTail r = .ok (x, rest)) :
    stringTail before ('\\' :: r) = stringTail (x :: before) rest := by
  rw [stringTail]
  simp only [Char.reduceEq, ↓reduceIte]
  split
  · next fault hf =>
    rw [h] at hf
    cases hf
  · next y rest' hy =>
    rw [h] at hy
    cases hy
    rfl

theorem stringTail_plain {before r : List Char} {c : Char} (hq : c ≠ '"') (hb : c ≠ '\\')
    (hc : ¬ c.toNat < 0x20) : stringTail before (c :: r) = stringTail (c :: before) r := by
  rw [stringTail, if_neg hq, if_neg hb, if_neg hc]

/-! ## Numerals -/

theorem ofDigitChars_cons_digitValue (c : Char) (cs : List Char) (n : Nat) :
    Nat.ofDigitChars 10 (c :: cs) n = Nat.ofDigitChars 10 cs (n * 10 + digitValue c) := by
  rw [Nat.ofDigitChars_cons, Nat.mul_comm]
  rfl

theorem le_ofDigitChars (cs : List Char) (n : Nat) : n ≤ Nat.ofDigitChars 10 cs n := by
  rw [Nat.ofDigitChars_eq_ofDigitChars_zero]
  calc n = 1 * n := (Nat.one_mul n).symm
    _ ≤ 10 ^ cs.length * n := Nat.mul_le_mul_right n (Nat.one_le_pow _ _ (by decide))
    _ ≤ _ := Nat.le_add_right _ _

theorem digitChar_ne_zero : ∀ d < 10, 0 < d → d.digitChar ≠ '0' := by decide

theorem head?_spellNat_ne {n : Nat} (hn : 0 < n) : (spellNat n).head? ≠ some '0' := by
  induction n using Nat.strong_induction_on with
  | _ n ih =>
    rw [spellNat, Nat.toDigits_eq_if (by decide)]
    split_ifs with h
    · intro h0
      exact digitChar_ne_zero n h hn (by simpa using h0)
    · have hdiv := ih (n / 10) (by omega) (by omega)
      rw [List.head?_append_of_ne_nil _ Nat.toDigits_ne_nil]
      exact hdiv

theorem ofInt?_toInt (n : Whole) : Whole.ofInt? n.toInt = some n := by
  rw [Whole.ofInt?, dif_pos ⟨n.lower, n.upper⟩]

/-- The integer of a number of 64 bits. -/
theorem exists_spell_eq {n : Nat} (hn : n < UInt64.size) :
    ∃ k : Whole, k.toInt = n ∧ k.spell = spellNat n := by
  rw [UInt64.size] at hn
  refine ⟨⟨n, by omega, by omega⟩, rfl, ?_⟩
  rw [Whole.spell, if_neg (Int.not_lt.2 (Int.natCast_nonneg n)), Int.natAbs_natCast]

theorem readScalar_digit {c : Char} (hc : c.isDigit) (r : List Char) :
    readScalar (c :: r) = numeral false (c :: r) := by
  have hq : c ≠ '"' := by rintro rfl; revert hc; decide
  have hm : c ≠ '-' := by rintro rfl; revert hc; decide
  simp [readScalar, hq, hm, hc]

end MusicCatalog.Json
