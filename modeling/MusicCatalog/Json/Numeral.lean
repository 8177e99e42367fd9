import MusicCatalog.Json.Reader
import MusicCatalog.Json.Value

/-!
# Numerals

A numeral without a fraction and an exponent is an integer if it fits 64 bits; minus zero does not
count as one. Every other numeral is a floating number. At most so many digits are kept as fit 64
bits: further integer digits only count as places, and further digits of the fraction not at all.

* `Whole.ofInt?`, `Whole.spell`: integers of 64 bits;
* `takeDigits`, `takeExponent`: digits as far as they fit;
* **`numeral`**: a numeral after its sign.
-/

namespace MusicCatalog.Json

open MusicCatalog.Decimal

/-! ## Integers -/

/-- The integer, if it fits 64 bits. -/
def Whole.ofInt? (n : Int) : Option Whole :=
  if h : -0x8000000000000000 ≤ n ∧ n < 0x10000000000000000 then some ⟨n, h.1, h.2⟩ else none

/-- A natural number as a numeral. -/
def spellNat (n : Nat) : List Char := Nat.toDigits 10 n

/-- An integer as a numeral. -/
def Whole.spell (n : Whole) : List Char :=
  if n.toInt < 0 then '-' :: spellNat n.toInt.natAbs else spellNat n.toInt.natAbs

/-! ## Digits -/

/-- The value of a decimal digit. -/
def digitValue (c : Char) : Nat := c.toNat - '0'.toNat

/-- Appends digits to `n` while it stays below `2 ^ 64`. Gives the number, `count` increased by the
digits taken, and the rest. -/
def takeDigits (n count : Nat) : List Char → Nat × Nat × List Char
  | [] => (n, count, [])
  | c :: r =>
    if c.isDigit ∧ n * 10 + digitValue c < 0x10000000000000000 then
      takeDigits (n * 10 + digitValue c) (count + 1) r
    else (n, count, c :: r)

/-- Appends digits to `n` while it stays below `2 ^ 31`; `none` and the rest after the digit that is
too much, if there is one. -/
def takeExponent (n : Nat) : List Char → Option Nat × List Char
  | [] => (some n, [])
  | c :: r =>
    if c.isDigit then
      if n * 10 + digitValue c < 0x80000000 then takeExponent (n * 10 + digitValue c) r
      else (none, r)
    else (some n, c :: r)

/-! ## Numerals -/

/-- The floating number of a magnitude, if that is finite, where a numeral ends. -/
def signed (negative : Bool) (magnitude : Option Magnitude) : Reader Value := fun r =>
  match magnitude with
  | some m => .ok (.float ⟨negative, m⟩, r)
  | none => .error (.here .numberOutOfRange r)

/-- The floating number `mantissa * 10 ^ exponent`, where a numeral ends. -/
def floating (negative : Bool) (mantissa : Nat) (exponent : Int) : Reader Value :=
  signed negative (Magnitude.ofDecimal mantissa exponent)

/-- The exponent of a numeral, after its letter. -/
def exponentTail (negative : Bool) (mantissa : Nat) (exponent : Int) : Reader Value := fun s =>
  let (down, s) : Bool × List Char :=
    match s with
    | [] => (false, [])
    | c :: r => if c = '-' then (true, r) else if c = '+' then (false, r) else (false, c :: r)
  match s with
  | [] => .error (.here .endInValue [])
  | c :: r =>
    if c.isDigit then
      match takeExponent (digitValue c) r with
      | (some n, rest) => floating negative mantissa (if down then exponent - n else exponent + n) rest
      | (none, rest) =>
        if mantissa ≠ 0 ∧ !down then .error (.here .numberOutOfRange rest)
        else .ok (.float ⟨negative, .zero⟩, rest.dropWhile Char.isDigit)
    else .error (.ahead .invalidNumber (c :: r))

/-- What may follow all digits of a numeral that has a fraction. -/
def fractionEnd (negative : Bool) (mantissa : Nat) (exponent : Int) : Reader Value
  | [] => floating negative mantissa exponent []
  | c :: r =>
    if c = 'e' ∨ c = 'E' then exponentTail negative mantissa exponent r
    else floating negative mantissa exponent (c :: r)

/-- The fraction of a numeral, after its point. -/
def fractionTail (negative : Bool) (mantissa : Nat) (exponent : Int) : Reader Value
  | [] => .error (.here .endInValue [])
  | c :: r =>
    if c.isDigit then
      let (n, taken, rest) := takeDigits mantissa 0 (c :: r)
      fractionEnd negative n (exponent - taken) (rest.dropWhile Char.isDigit)
    else .error (.ahead .invalidNumber (c :: r))

/-- A numeral without fraction and exponent, of which `dropped` digits were too many. -/
def wholeEnd (negative : Bool) (n dropped : Nat) : Reader Value := fun r =>
  if dropped ≠ 0 ∨ (negative ∧ n = 0) then floating negative n dropped r
  else
    match Whole.ofInt? (if negative then -(n : Int) else n) with
    | some w => .ok (.int w, r)
    | none => floating negative n 0 r

/-- What may follow the integer digits of a numeral. -/
def afterWhole (negative : Bool) (n dropped : Nat) : Reader Value
  | [] => wholeEnd negative n dropped []
  | c :: r =>
    if c = '.' then fractionTail negative n dropped r
    else if c = 'e' ∨ c = 'E' then exponentTail negative n dropped r
    else wholeEnd negative n dropped (c :: r)

/-- A numeral after its sign. A zero is followed by no other digit. -/
def numeral (negative : Bool) : Reader Value
  | [] => .error (.here .endInValue [])
  | c :: r =>
    if c = '0' then
      match r with
      | [] => afterWhole negative 0 0 []
      | d :: r' =>
        if d.isDigit then .error (.ahead .invalidNumber (d :: r'))
        else afterWhole negative 0 0 (d :: r')
    else if c.isDigit then
      let (n, _, rest) := takeDigits (digitValue c) 1 r
      let dropped := (rest.takeWhile Char.isDigit).length
      afterWhole negative n dropped (rest.drop dropped)
    else .error (.ahead .invalidNumber (c :: r))

end MusicCatalog.Json
