/-!
# Finite binary64 numbers

A magnitude is kept as the 63 bits below the sign, so two magnitudes are equal exactly when their
bits are, and a larger magnitude has larger bits. Every finite magnitude is a whole multiple of
`2 ^ (-1074)`; that multiple, `units`, is what all arithmetic is done on, exactly in `Nat` and with
one rounding at the end (to nearest, ties to the even neighbour).

* `Magnitude`, `Magnitude.units`: the bits and the exact multiple of the smallest step;
* **`Magnitude.round`**: the magnitude nearest to a quotient of two naturals, if it is finite;
* `Magnitude.ofNat?`, `Magnitude.mul?`, `Magnitude.div?`, `Magnitude.tenPow`: operations, each
  rounded once;
* `Binary64`: a sign and a magnitude, with two different zeros that compare equal.
-/

namespace MusicCatalog.Decimal

/-- The first bit pattern that is no longer finite. -/
def infinityBits : Nat := 0x7FF0000000000000

/-- The bit before the fraction, which normal numbers leave out of their significand: `2 ^ 52`. -/
def leadingBit : Nat := 1 <<< 52

/-- How many of the smallest steps make one: `2 ^ 1074`. -/
def unitsPerOne : Nat := 1 <<< 1074

/-- A finite binary64 number without its sign. -/
structure Magnitude where
  bits : Nat
  finite : bits < infinityBits
deriving DecidableEq

namespace Magnitude

/-- The number zero. -/
def zero : Magnitude := ⟨0, by decide⟩

/-- The place of the last significand bit, counted in the smallest steps: the binade, with the
subnormal numbers in the lowest one. -/
def scale (m : Magnitude) : Nat := m.bits >>> 52 - 1

/-- The significand, with the leading bit that normal numbers leave out. -/
def significand (m : Magnitude) : Nat :=
  if m.bits < leadingBit then m.bits else leadingBit + m.bits % leadingBit

/-- The number as a multiple of `2 ^ (-1074)`. -/
def units (m : Magnitude) : Nat := m.significand <<< m.scale

/-- `num / den` to the nearest natural, a half to the even neighbour. -/
def nearestEven (num den : Nat) : Nat :=
  let floor := num / den
  let rest := num % den
  if 2 * rest < den then floor
  else if den < 2 * rest then floor + 1
  else floor + floor % 2

/-- The magnitude nearest to `num / den` smallest steps, a tie going to the even significand;
`none` if it is too large to be finite. -/
def round (num den : Nat) : Option Magnitude :=
  let scale := (num / den).log2 - 52
  let bits := scale <<< 52 + nearestEven num (den <<< scale)
  if finite : bits < infinityBits then some ⟨bits, finite⟩ else none

/-- The magnitude nearest to a natural number. -/
def ofNat? (n : Nat) : Option Magnitude := round (n * unitsPerOne) 1

/-- The magnitude nearest to a product. -/
def mul? (a b : Magnitude) : Option Magnitude := round (a.units * b.units) unitsPerOne

/-- The magnitude nearest to a quotient. -/
def div? (a b : Magnitude) : Option Magnitude := round (a.units * unitsPerOne) b.units

/-- The magnitude nearest to a power of ten; exponents above 308 have none. -/
def tenPow (k : Nat) : Option Magnitude := ofNat? (Nat.pow 10 k)

/-- `mantissa * 10 ^ (-k)`, in steps: while `k` is above 308 the number is divided by `10 ^ 308`,
and then once by the power that is left. Each division is rounded, so the result is not always the
nearest magnitude. `rounds` bounds the number of steps. -/
def shrink (x : Magnitude) (k : Nat) : (rounds : Nat) → Option Magnitude
  | 0 => some x
  | rounds + 1 =>
    if k ≤ 308 then do x.div? (← tenPow k)
    else if x.bits = 0 then some x
    else do shrink (← x.div? (← tenPow 308)) (k - 308) rounds

/-- `mantissa * 10 ^ exponent`, as a decimal numeral is converted: the mantissa is rounded first,
and then multiplied or divided by rounded powers of ten. `none` if that is too large. -/
def ofDecimal (mantissa : Nat) (exponent : Int) : Option Magnitude := do
  let x ← ofNat? mantissa
  if exponent < 0 then x.shrink exponent.natAbs (exponent.natAbs / 308 + 1)
  else if exponent ≤ 308 then x.mul? (← tenPow exponent.toNat)
  else if x.bits = 0 then some x
  else none

end Magnitude

/-- A finite binary64 number. -/
structure Binary64 where
  negative : Bool
  magnitude : Magnitude
deriving DecidableEq

namespace Binary64

/-- Equality as numbers: the two zeros are equal. -/
def eqv (x y : Binary64) : Bool :=
  (x.magnitude.bits == 0 && y.magnitude.bits == 0) || (x.negative == y.negative && x.magnitude.bits == y.magnitude.bits)

/-- Two numbers are equal if they are zeros or the same number. -/
theorem eqv_iff {x y : Binary64} :
    x.eqv y ↔ (x.magnitude.bits = 0 ∧ y.magnitude.bits = 0) ∨ x = y := by
  obtain ⟨s, m, hm⟩ := x
  obtain ⟨t, n, hn⟩ := y
  simp [eqv]

end Binary64

end MusicCatalog.Decimal
