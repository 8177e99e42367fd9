import MusicCatalog.Text.Surrogate

/-!
# From octets to text

A byte order mark at the beginning chooses between UTF-8 and the two orders of UTF-16, and is not
part of the text; without one the octets are UTF-8. What is no character becomes `U+FFFD`: once for
each ill-formed piece of UTF-8 that is as long as a character could have begun, and once for each
surrogate without its partner.

* `fromUtf8`, `fromUtf16`: the encodings;
* **`decode`**: any octets.
-/

namespace MusicCatalog.Text

/-- What stands for octets that are no character. -/
def replacement : Char := '\uFFFD'

/-! ## UTF-8 -/

/-- A character that has begun: so many octets are missing, the next one between `low` and `high`. -/
structure Begun where
  missing : Nat
  value : Nat
  low : Nat
  high : Nat

/-- An octet where a character may begin: what it stands for, and what it begins. -/
def beginUtf8 (b : Nat) : List Char × Option Begun :=
  if b < 0x80 then ([Char.ofNat b], none)
  else if b < 0xC2 then ([replacement], none)
  else if b < 0xE0 then ([], some ⟨1, b - 0xC0, 0x80, 0xBF⟩)
  else if b < 0xF0 then
    ([], some ⟨2, b - 0xE0, if b = 0xE0 then 0xA0 else 0x80, if b = 0xED then 0x9F else 0xBF⟩)
  else if b < 0xF5 then
    ([], some ⟨3, b - 0xF0, if b = 0xF0 then 0x90 else 0x80, if b = 0xF4 then 0x8F else 0xBF⟩)
  else ([replacement], none)

/-- The next octet of a character that has begun. One that cannot belong to it begins anew. -/
def continueUtf8 (begun : Begun) (b : Nat) : List Char × Option Begun :=
  if begun.low ≤ b ∧ b ≤ begun.high then
    let value := begun.value * 64 + (b - 0x80)
    if begun.missing = 1 then ([Char.ofNat value], none)
    else ([], some ⟨begun.missing - 1, value, 0x80, 0xBF⟩)
  else
    let (cs, begun) := beginUtf8 b
    (replacement :: cs, begun)

/-- The text of octets in UTF-8. -/
def fromUtf8 (begun : Option Begun) : List UInt8 → List Char
  | [] => if begun.isSome then [replacement] else []
  | b :: bs =>
    let (cs, begun) :=
      match begun with
      | none => beginUtf8 b.toNat
      | some begun => continueUtf8 begun b.toNat
    cs ++ fromUtf8 begun bs

/-! ## UTF-16 -/

/-- A unit where a character may begin: what it stands for, and the high surrogate it may be. -/
def beginUtf16 (u : Nat) : List Char × Option Nat :=
  if isHighSurrogate u then ([], some u)
  else if isLowSurrogate u then ([replacement], none)
  else ([Char.ofNat u], none)

/-- The unit after a high surrogate. -/
def continueUtf16 (high u : Nat) : List Char × Option Nat :=
  if isLowSurrogate u then ([pairedChar high u], none)
  else
    let (cs, high) := beginUtf16 u
    (replacement :: cs, high)

/-- The text of octets in UTF-16, the first octet of a unit being the high one if `bigEndian`. -/
def fromUtf16 (bigEndian : Bool) (high : Option Nat) : List UInt8 → List Char
  | [] => if high.isSome then [replacement] else []
  | [_] => [replacement]
  | a :: b :: bs =>
    let u := if bigEndian then a.toNat * 256 + b.toNat else b.toNat * 256 + a.toNat
    let (cs, high) :=
      match high with
      | none => beginUtf16 u
      | some high => continueUtf16 high u
    cs ++ fromUtf16 bigEndian high bs

/-! ## Any octets -/

/-- The text of octets, by their byte order mark. -/
def decode : List UInt8 → List Char
  | 0xEF :: 0xBB :: 0xBF :: bs => fromUtf8 none bs
  | 0xFE :: 0xFF :: bs => fromUtf16 true none bs
  | 0xFF :: 0xFE :: bs => fromUtf16 false none bs
  | bs => fromUtf8 none bs

end MusicCatalog.Text
