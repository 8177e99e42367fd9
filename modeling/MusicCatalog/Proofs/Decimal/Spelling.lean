import MusicCatalog.Decimal.Shortest
import MusicCatalog.Proofs.Json.Grammar
import MusicCatalog.Proofs.Json.Token

/-!
# Floating numbers are written as numerals

Whatever decimals are found for a number, they are written so that the grammar accepts them: the
digits do not begin with a zero, and there is at least one on each side of a point.

* `nearestMultiple?_pos`, `digits_trimZeros`: a search never ends at zero;
* **`Digits.Proper`**, `proper_shortest`: digits without a zero in front;
* `isUnsigned_spell`, **`Binary64.isNumber_spell`**: the written numeral.
-/

namespace MusicCatalog.Decimal

open Json Grammar

/-! ## Digits that are found -/

/-- Some digits, of which the first is no zero, or a zero right of the point. -/
def Digits.Proper (d : Digits) : Prop :=
  IsDigits d.digits ∧ (d.digits.head? = some '0' → d.point = 0)

theorem digits_toDigits (n : Nat) : IsDigits (Nat.toDigits 10 n) :=
  ⟨Nat.toDigits_ne_nil, fun _ hc => Nat.isDigit_of_mem_toDigits (by decide) (by decide) hc⟩

/-- Zeros are only left out at the end. -/
theorem trimZeros_append (ds : List Char) : ∃ n, ds = trimZeros ds ++ List.replicate n '0' := by
  have hsplit := List.takeWhile_append_dropWhile (p := fun c : Char => c == '0') (l := ds.reverse)
  have hzeros : (ds.reverse.takeWhile (· == '0')).reverse =
      List.replicate (ds.reverse.takeWhile (· == '0')).length '0' := by
    rw [List.reverse_eq_iff, List.reverse_replicate, List.eq_replicate_iff]
    exact ⟨rfl, fun c hc => by simpa using List.mem_takeWhile_imp hc⟩
  refine ⟨(ds.reverse.takeWhile (· == '0')).length, ?_⟩
  rw [← hzeros, trimZeros, ← List.reverse_append, hsplit, List.reverse_reverse]

theorem digits_trimZeros {n : Nat} (hn : 0 < n) :
    IsDigits (trimZeros (Nat.toDigits 10 n)) ∧
      (trimZeros (Nat.toDigits 10 n)).head? ≠ some '0' := by
  obtain ⟨k, hk⟩ := trimZeros_append (Nat.toDigits 10 n)
  have hhead := head?_spellNat_ne hn
  have hdigits := digits_toDigits n
  rw [spellNat] at hhead
  cases hds : trimZeros (Nat.toDigits 10 n) with
  | nil =>
    rw [hds, List.nil_append] at hk
    cases k with
    | zero => exact absurd hk hdigits.1
    | succ k =>
      rw [hk] at hhead
      exact absurd rfl hhead
  | cons c cs =>
    rw [hds] at hk
    rw [hk] at hhead hdigits
    exact ⟨⟨List.cons_ne_nil c cs, fun d hd => hdigits.2 d (List.mem_append_left _ hd)⟩, hhead⟩

/-- Zero is no multiple in an interval above it. -/
theorem nearestMultiple?_pos {i : Interval} {step n : Nat} (hi : 0 < i.low)
    (h : i.nearestMultiple? step = some n) : 0 < n := by
  have hzero : i.holds 0 = false := by
    have hne : i.low ≠ 0 := Nat.ne_of_gt hi
    unfold Interval.holds
    split <;> simp [hne]
  unfold Interval.nearestMultiple? at h
  dsimp only at h
  have hfloor : i.holds (i.middle / step * step) = true → 0 < i.middle / step := by
    intro hholds
    refine Nat.pos_of_ne_zero fun h0 => ?_
    rw [h0, Nat.zero_mul, hzero] at hholds
    cases hholds
  split at h
  · cases h
  · next hf _ => exact Option.some.inj h ▸ hfloor hf
  · exact Option.some.inj h ▸ Nat.succ_pos _
  · next hf _ =>
    have := hfloor hf
    split_ifs at h <;> cases h <;> omega

theorem proper_searchDigits {i : Interval} (hi : 0 < i.low) (point : Int) (count more : Nat) :
    (searchDigits i point count more).Proper := by
  induction more generalizing count with
  | zero => exact ⟨⟨List.cons_ne_nil _ _, List.forall_mem_singleton.2 rfl⟩, fun _ => rfl⟩
  | succ more ih =>
    rw [searchDigits]
    dsimp only
    split
    · next n hn =>
      obtain ⟨hdigits, hhead⟩ := digits_trimZeros (nearestMultiple?_pos hi hn)
      exact ⟨hdigits, fun h => absurd h hhead⟩
    · exact ih (count + 1)

theorem significand_pos {m : Magnitude} (hm : m.bits ≠ 0) : 0 < m.significand := by
  unfold Magnitude.significand
  split_ifs
  · exact Nat.pos_of_ne_zero hm
  · exact Nat.add_pos_left (by decide) _

theorem low_interval_pos {m : Magnitude} (hm : m.bits ≠ 0) : 0 < m.interval.low := by
  have hunits : 1 <<< m.scale ≤ m.units := by
    rw [Magnitude.units, Nat.shiftLeft_eq, Nat.shiftLeft_eq]
    exact Nat.mul_le_mul_right _ (significand_pos hm)
  have hstep : 0 < 1 <<< m.scale := by
    rw [Nat.shiftLeft_eq, Nat.one_mul]
    exact Nat.two_pow_pos _
  unfold Magnitude.interval
  dsimp only
  split_ifs <;> omega

theorem proper_shortest {m : Magnitude} (hm : m.bits ≠ 0) : (shortest m).Proper := by
  have hpow : ∀ k, 0 < Nat.pow 10 k := fun k => Nat.pow_pos (by decide)
  exact proper_searchDigits (Nat.mul_pos (low_interval_pos hm) (hpow gridPlaces)) _ _ _

/-! ## Numerals -/

theorem isExponent_spell (e : Int) : ∃ x, IsExponent (spellExponent e) (some x) := by
  unfold spellExponent
  split_ifs
  · exact ⟨_, .minus (.inl rfl) (digits_toDigits _)⟩
  · exact ⟨_, .plus (.inl rfl) (digits_toDigits _)⟩

theorem forall_mem_zeros (n : Nat) : ∀ c ∈ List.replicate n '0', c.isDigit := fun _ hc =>
  List.eq_of_mem_replicate hc ▸ rfl

/-- A point with digits on both sides. -/
theorem isUnsigned_point (negative : Bool) {whole fraction e : List Char}
    {exponent : Option (Bool × List Char)} (hw : IsWhole whole) (hf : IsDigits fraction)
    (he : IsExponent e exponent) :
    IsUnsigned (whole ++ '.' :: (fraction ++ e)) ⟨negative, whole, some fraction, exponent⟩ :=
  .mk hw (.present hf) he

theorem isUnsigned_spell {d : Digits} (hd : d.Proper) (negative : Bool) :
    ∃ x, IsUnsigned d.spell x ∧ x.negative = negative := by
  obtain ⟨⟨hne, hdigits⟩, hzero⟩ := hd
  obtain ⟨c, cs, hcs⟩ := List.exists_cons_of_ne_nil hne
  rw [hcs] at hdigits hzero
  obtain ⟨hc, hrest⟩ := List.forall_mem_cons.1 hdigits
  -- right of the first place the digits stand before the point, so they begin with no zero
  have hwhole : d.point ≠ 0 → ∀ ds, (∀ c ∈ ds, c.isDigit) → IsWhole (c :: ds) :=
    fun hpoint ds hds => ⟨⟨List.cons_ne_nil c ds, List.forall_mem_cons.2 ⟨hc, hds⟩⟩,
      fun h => absurd (hzero h) hpoint⟩
  unfold Digits.spell
  rw [hcs]
  split_ifs with hpositional hpoint
  · have hone : IsWhole ['0'] := ⟨digits_toDigits 0, fun _ => rfl⟩
    have hfraction : IsDigits (List.replicate d.point.natAbs '0' ++ c :: cs) :=
      ⟨List.append_ne_nil_of_right_ne_nil _ (List.cons_ne_nil c cs), fun x hx =>
        (List.mem_append.1 hx).elim (forall_mem_zeros _ x) (hdigits x)⟩
    have h := isUnsigned_point negative hone hfraction .absent
    rw [List.append_nil] at h
    exact ⟨_, h, rfl⟩
  · have hne : d.point ≠ 0 := by omega
    obtain ⟨k, hk⟩ : ∃ k, d.point.toNat = k + 1 := ⟨d.point.toNat - 1, by omega⟩
    dsimp only
    rw [hk]
    split_ifs with hlength
    · have hint := hwhole hne (cs ++ List.replicate (k + 1 - (c :: cs).length) '0') fun x hx =>
        (List.mem_append.1 hx).elim (hrest x) (forall_mem_zeros _ x)
      exact ⟨_, isUnsigned_point negative hint (digits_toDigits 0) .absent, rfl⟩
    · have hint := hwhole hne (cs.take k) fun x hx => hrest x (List.mem_of_mem_take hx)
      have hfraction : IsDigits (cs.drop k) := by
        refine ⟨fun h => hlength ?_, fun x hx => hrest x (List.mem_of_mem_drop hx)⟩
        rw [List.length_cons]
        exact Nat.succ_le_succ (List.drop_eq_nil_iff.1 h)
      have h := isUnsigned_point negative hint hfraction .absent
      rw [List.append_nil] at h
      exact ⟨_, h, rfl⟩
  · have hne : d.point ≠ 0 := by omega
    obtain ⟨exponent, he⟩ := isExponent_spell (d.point - 1)
    have hint := hwhole hne [] (List.forall_mem_nil _)
    cases cs with
    | nil => exact ⟨⟨negative, [c], none, _⟩, .mk hint .absent he, rfl⟩
    | cons c' cs =>
      have hfraction : IsDigits (c' :: cs) := ⟨List.cons_ne_nil c' cs, hrest⟩
      exact ⟨_, isUnsigned_point negative hint hfraction he, rfl⟩

/-- **A floating number** is written as a numeral of the grammar. -/
theorem Binary64.isNumber_spell (x : Binary64) : ∃ n, IsNumber x.spell n := by
  have hunsigned : ∃ t n, IsUnsigned t n ∧ n.negative = x.negative ∧
      x.spell = (if x.negative then ['-'] else []) ++ t := by
    by_cases hbits : x.magnitude.bits = 0
    · rw [Binary64.spell, if_pos hbits]
      have hzero : IsWhole ['0'] := ⟨digits_toDigits 0, fun _ => rfl⟩
      exact ⟨_, _, isUnsigned_point x.negative hzero (digits_toDigits 0) .absent, rfl, rfl⟩
    · rw [Binary64.spell, if_neg hbits]
      obtain ⟨n, hn, hneg⟩ := isUnsigned_spell (proper_shortest hbits) x.negative
      exact ⟨_, n, hn, hneg, rfl⟩
  obtain ⟨t, n, hn, hneg, ht⟩ := hunsigned
  rw [ht]
  cases hx : x.negative with
  | true => exact ⟨n, .minus hn (hneg.trans hx)⟩
  | false => exact ⟨n, .unsigned hn (hneg.trans hx)⟩

end MusicCatalog.Decimal
