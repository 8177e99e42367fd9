import Mathlib.Tactic.SplitIfs
import MusicCatalog.Text.Decode

/-!
# Text in UTF-8

* `utf8`: the octets of a text;
* `fromUtf8_encodeChar`, `fromUtf8_utf8`: they are decoded character by character;
* **`decode_utf8`**: a text that does not begin with a byte order mark is what its octets stand for.
-/

namespace MusicCatalog.Text

/-- The octets of a text. -/
def utf8 (cs : List Char) : List UInt8 := cs.flatMap String.utf8EncodeChar

section Octets

variable {n : Nat} {bs : List UInt8}

theorem fromUtf8_ascii (hn : n < 0x80) :
    fromUtf8 none (UInt8.ofNat n :: bs) = Char.ofNat n :: fromUtf8 none bs := by
  have hoctet : (UInt8.ofNat n).toNat = n := UInt8.toNat_ofNat_of_lt' (by rw [UInt8.size]; omega)
  simp only [fromUtf8, hoctet, beginUtf8, hn, ↓reduceIte, List.singleton_append]

/-- An octet that begins a longer character. -/
theorem fromUtf8_begun {begun : Begun} (hn : n < 0x100) (h : beginUtf8 n = ([], some begun)) :
    fromUtf8 none (UInt8.ofNat n :: bs) = fromUtf8 (some begun) bs := by
  have hoctet : (UInt8.ofNat n).toNat = n := UInt8.toNat_ofNat_of_lt' hn
  simp only [fromUtf8, hoctet, h, List.nil_append]

variable {missing value low high : Nat}

theorem continueUtf8_of_mem (hn : n < 0x40) (hlow : low ≤ n + 0x80) (hhigh : n + 0x80 ≤ high) :
    continueUtf8 ⟨missing, value, low, high⟩ (UInt8.ofNat (n + 0x80)).toNat =
      if missing = 1 then ([Char.ofNat (value * 64 + n)], none)
      else ([], some ⟨missing - 1, value * 64 + n, 0x80, 0xBF⟩) := by
  have hoctet : (UInt8.ofNat (n + 0x80)).toNat = n + 0x80 :=
    UInt8.toNat_ofNat_of_lt' (by rw [UInt8.size]; omega)
  rw [hoctet, continueUtf8, if_pos ⟨hlow, hhigh⟩, Nat.add_sub_cancel]

/-- The last octet of a character. -/
theorem fromUtf8_last (hn : n < 0x40) (hlow : low ≤ n + 0x80) (hhigh : n + 0x80 ≤ high) :
    fromUtf8 (some ⟨1, value, low, high⟩) (UInt8.ofNat (n + 0x80) :: bs) =
      Char.ofNat (value * 64 + n) :: fromUtf8 none bs := by
  simp only [fromUtf8, continueUtf8_of_mem hn hlow hhigh, ↓reduceIte, List.singleton_append]

/-- An octet with others behind it. -/
theorem fromUtf8_next (hn : n < 0x40) (hlow : low ≤ n + 0x80) (hhigh : n + 0x80 ≤ high) :
    fromUtf8 (some ⟨missing + 2, value, low, high⟩) (UInt8.ofNat (n + 0x80) :: bs) =
      fromUtf8 (some ⟨missing + 1, value * 64 + n, 0x80, 0xBF⟩) bs := by
  simp only [fromUtf8, continueUtf8_of_mem hn hlow hhigh, Nat.reduceEqDiff, ↓reduceIte,
    List.nil_append, Nat.add_one_sub_one]

end Octets

/-- A character is decoded from its octets, whatever follows. -/
theorem fromUtf8_encodeChar (c : Char) (bs : List UInt8) :
    fromUtf8 none (String.utf8EncodeChar c ++ bs) = c :: fromUtf8 none bs := by
  have hvalid : c.val.toNat < 0xD800 ∨ 0xDFFF < c.val.toNat ∧ c.val.toNat < 0x110000 := c.valid
  have hback : Char.ofNat c.val.toNat = c := Char.ofNat_toNat c
  rw [String.utf8EncodeChar]
  generalize c.val.toNat = n at hvalid hback
  subst hback
  -- the ranges of a second octet leave out what has a shorter form, surrogates, and what is too large
  split_ifs with h₁ h₂ h₃
  · exact fromUtf8_ascii (by omega)
  · have hbegin : beginUtf8 (n / 64 % 32 + 192) = ([], some ⟨1, n / 64, 0x80, 0xBF⟩) := by
      have hvalue : n / 64 % 32 + 192 - 0xC0 = n / 64 := by omega
      rw [beginUtf8, if_neg (by omega), if_neg (by omega), if_pos (by omega), hvalue]
    change fromUtf8 none (UInt8.ofNat _ :: UInt8.ofNat _ :: bs) = _
    rw [fromUtf8_begun (by omega) hbegin, fromUtf8_last (by omega) (by omega) (by omega),
      Nat.div_add_mod']
  · have hbegin : beginUtf8 (n / 4096 % 16 + 224) = ([], some ⟨2, n / 4096,
        if n / 4096 % 16 + 224 = 0xE0 then 0xA0 else 0x80,
        if n / 4096 % 16 + 224 = 0xED then 0x9F else 0xBF⟩) := by
      have hvalue : n / 4096 % 16 + 224 - 0xE0 = n / 4096 := by omega
      rw [beginUtf8, if_neg (by omega), if_neg (by omega), if_neg (by omega), if_pos (by omega),
        hvalue]
    have hvalue : n / 4096 * 64 + n / 64 % 64 = n / 64 := by omega
    change fromUtf8 none (UInt8.ofNat _ :: UInt8.ofNat _ :: UInt8.ofNat _ :: bs) = _
    rw [fromUtf8_begun (by omega) hbegin,
      fromUtf8_next (by omega) (by split_ifs <;> omega) (by split_ifs <;> omega), hvalue,
      fromUtf8_last (by omega) (by omega) (by omega), Nat.div_add_mod']
  · have hbegin : beginUtf8 (n / 262144 % 8 + 240) = ([], some ⟨3, n / 262144,
        if n / 262144 % 8 + 240 = 0xF0 then 0x90 else 0x80,
        if n / 262144 % 8 + 240 = 0xF4 then 0x8F else 0xBF⟩) := by
      have hvalue : n / 262144 % 8 + 240 - 0xF0 = n / 262144 := by omega
      rw [beginUtf8, if_neg (by omega), if_neg (by omega), if_neg (by omega), if_neg (by omega),
        if_pos (by omega), hvalue]
    have hvalue : n / 262144 * 64 + n / 4096 % 64 = n / 4096 := by omega
    have hvalue' : n / 4096 * 64 + n / 64 % 64 = n / 64 := by omega
    change fromUtf8 none
      (UInt8.ofNat _ :: UInt8.ofNat _ :: UInt8.ofNat _ :: UInt8.ofNat _ :: bs) = _
    rw [fromUtf8_begun (by omega) hbegin,
      fromUtf8_next (by omega) (by split_ifs <;> omega) (by split_ifs <;> omega), hvalue,
      fromUtf8_next (by omega) (by omega) (by omega), hvalue',
      fromUtf8_last (by omega) (by omega) (by omega), Nat.div_add_mod']

theorem fromUtf8_utf8 (cs : List Char) : fromUtf8 none (utf8 cs) = cs := by
  induction cs with
  | nil => rfl
  | cons c cs ih => rw [utf8, List.flatMap_cons, fromUtf8_encodeChar, ← utf8, ih]

theorem exists_encodeChar (c : Char) :
    ∃ n r, String.utf8EncodeChar c = UInt8.ofNat n :: r ∧ n < 0xF8 := by
  rw [String.utf8EncodeChar]
  split_ifs <;> exact ⟨_, _, rfl, by omega⟩

/-- No text begins with a byte order mark of UTF-16. -/
theorem front_utf8 {cs : List Char} {o : UInt8} {bs : List UInt8} (h : utf8 cs = o :: bs) :
    o.toNat < 0xF8 := by
  cases cs with
  | nil => cases h
  | cons c cs =>
    obtain ⟨n, r, hc, hn⟩ := exists_encodeChar c
    rw [utf8, List.flatMap_cons, hc] at h
    cases h
    rwa [UInt8.toNat_ofNat_of_lt' (by rw [UInt8.size]; omega)]

/-- **A text** that does not begin with a byte order mark is decoded from its octets. -/
theorem decode_utf8 {cs : List Char} (h : cs.head? ≠ some '\uFEFF') : decode (utf8 cs) = cs := by
  unfold decode
  split
  · next bs hmark =>
    have hdecoded : fromUtf8 none (0xEF :: 0xBB :: 0xBF :: bs) = '\uFEFF' :: fromUtf8 none bs := by rfl
    rw [← hmark, fromUtf8_utf8] at hdecoded
    rw [hdecoded] at h
    exact absurd rfl h
  · next hmark => exact absurd (front_utf8 hmark) (by decide)
  · next hmark => exact absurd (front_utf8 hmark) (by decide)
  · exact fromUtf8_utf8 cs

end MusicCatalog.Text
