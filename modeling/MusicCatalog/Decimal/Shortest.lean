import MusicCatalog.Decimal.Binary64

/-!
# The shortest decimal that reads back

A finite binary64 number stands for every real nearer to it than to its neighbours. Of the decimals
in that interval, the ones with the fewest digits are taken, and of those the nearest to the number,
a tie going to the even digit. All comparisons are exact, in multiples of a quarter of the smallest
step times `10 ^ (-400)`.

* `Digits`: a digit string with the place of its point;
* **`shortest`**: the digits of a nonzero magnitude;
* `spell`, `Binary64.spell`: positional from `0.00001` up to sixteen integer digits, otherwise with
  an exponent that always has a sign; a number without a fraction ends in `.0`.
-/

namespace MusicCatalog.Decimal

/-- The number `0.d₁d₂…dₙ * 10 ^ point`. -/
structure Digits where
  digits : List Char
  point : Int
deriving DecidableEq, Repr

/-- The exponent of the grid on which the digits are searched: every grid point is a whole multiple
of `10 ^ (-gridPlaces)`. -/
def gridPlaces : Nat := 400

/-- The reals that round to a magnitude, in quarter steps. -/
structure Interval where
  low : Nat
  middle : Nat
  high : Nat
  /-- The ends belong to the interval. -/
  closed : Bool

/-- The interval of a magnitude. Its ends are half-way to the neighbours; the lower neighbour of a
power of two is nearer than the upper one. Ends round to an even significand. -/
def Magnitude.interval (m : Magnitude) : Interval :=
  let step := 1 <<< m.scale
  let below := if m.significand = leadingBit ∧ m.scale ≠ 0 then step else 2 * step
  ⟨4 * m.units - below, 4 * m.units, 4 * m.units + 2 * step, m.significand % 2 == 0⟩

/-- A point, given like the ends, lies in the interval. -/
def Interval.holds (i : Interval) (point : Nat) : Bool :=
  if i.closed then i.low ≤ point && point ≤ i.high else i.low < point && point < i.high

/-- The interval on a finer scale. -/
def Interval.refine (i : Interval) (factor : Nat) : Interval :=
  ⟨i.low * factor, i.middle * factor, i.high * factor, i.closed⟩

/-- The multiple of `step` that is in the interval and nearest to its middle, as a multiplier; the
two multiples around the middle are the only ones to look at. -/
def Interval.nearestMultiple? (i : Interval) (step : Nat) : Option Nat :=
  let floor := i.middle / step
  let below := i.middle - floor * step
  let above := (floor + 1) * step - i.middle
  match i.holds (floor * step), i.holds ((floor + 1) * step) with
  | false, false => none
  | true, false => some floor
  | false, true => some (floor + 1)
  | true, true =>
    if below < above then some floor
    else if above < below then some (floor + 1)
    else some (floor + floor % 2)

/-- The least `p` with the magnitude below `10 ^ p`. -/
def Magnitude.point (m : Magnitude) : Int :=
  ((Nat.toDigits 10 (m.units * Nat.pow 10 gridPlaces / unitsPerOne)).length : Int) - gridPlaces

/-- Digits without the zeros at their end. -/
def trimZeros (ds : List Char) : List Char := (ds.reverse.dropWhile (· == '0')).reverse

/-- Tries `count` digits, then one more, at most `more` times. -/
def searchDigits (i : Interval) (point : Int) (count : Nat) : (more : Nat) → Digits
  | 0 => ⟨['0'], 0⟩
  | more + 1 =>
    let step := 4 * unitsPerOne * Nat.pow 10 (gridPlaces + point - count).toNat
    match i.nearestMultiple? step with
    | some n =>
      let ds := Nat.toDigits 10 n
      ⟨trimZeros ds, point + ((ds.length : Int) - count)⟩
    | none => searchDigits i point (count + 1) more

/-- The shortest digits of a nonzero magnitude. Seventeen always suffice. -/
def shortest (m : Magnitude) : Digits :=
  searchDigits (m.interval.refine (Nat.pow 10 gridPlaces)) m.point 1 17

/-- The exponent of a numeral in scientific notation, with its sign. -/
def spellExponent (e : Int) : List Char :=
  'e' :: (if e < 0 then '-' else '+') :: Nat.toDigits 10 e.natAbs

/-- Digits as a numeral: `0.00001` and `1000000000000000.0` are positional, `1e-6` and `1e+16` are
not. -/
def Digits.spell (d : Digits) : List Char :=
  if -5 < d.point ∧ d.point ≤ 16 then
    if d.point ≤ 0 then
      '0' :: '.' :: List.replicate d.point.natAbs '0' ++ d.digits
    else
      let whole := d.point.toNat
      if d.digits.length ≤ whole then
        d.digits ++ List.replicate (whole - d.digits.length) '0' ++ ['.', '0']
      else
        d.digits.take whole ++ '.' :: d.digits.drop whole
  else
    match d.digits with
    | [] => []
    | [first] => first :: spellExponent (d.point - 1)
    | first :: rest => first :: '.' :: rest ++ spellExponent (d.point - 1)

/-- A number as a numeral. Zero has one digit on each side of the point, and keeps its sign. -/
def Binary64.spell (x : Binary64) : List Char :=
  let sign := if x.negative then ['-'] else []
  if x.magnitude.bits = 0 then sign ++ ['0', '.', '0']
  else sign ++ (shortest x.magnitude).spell

end MusicCatalog.Decimal
