/-!
# Surrogates

Characters beyond the first plane are two units in UTF-16, each from a range of its own that holds no
characters.

* `isHighSurrogate`, `isLowSurrogate`: the two ranges;
* **`pairedChar`**: the character of a pair.
-/

namespace MusicCatalog.Text

/-- The first half of a surrogate pair. -/
def isHighSurrogate (n : Nat) : Bool := 0xD800 ≤ n && n ≤ 0xDBFF

/-- The second half of a surrogate pair. -/
def isLowSurrogate (n : Nat) : Bool := 0xDC00 ≤ n && n ≤ 0xDFFF

/-- The character of a surrogate pair. -/
def pairedChar (high low : Nat) : Char :=
  Char.ofNat (0x10000 + (high - 0xD800) * 0x400 + (low - 0xDC00))

end MusicCatalog.Text
