import MusicCatalog.Json.Reader
import MusicCatalog.Text.Surrogate

/-!
# String literals

A string is written between double quotes. Quotes, backslashes and controls are escaped; everything
else stands for itself. A document may escape any character, those beyond the first plane by a pair
of surrogates.

* `escape`, **`quote`**: the written form;
* `codeUnit`, `escapeTail`: four hexadecimal digits, and what may follow a backslash;
* **`stringTail`**: the characters up to the closing quote.
-/

namespace MusicCatalog.Json

open MusicCatalog.Text

/-! ## Writing -/

/-- A character inside a string literal. -/
def escape (c : Char) : List Char :=
  if c = '"' then ['\\', '"']
  else if c = '\\' then ['\\', '\\']
  else if c = '\x08' then ['\\', 'b']
  else if c = '\x0c' then ['\\', 'f']
  else if c = '\n' then ['\\', 'n']
  else if c = '\r' then ['\\', 'r']
  else if c = '\t' then ['\\', 't']
  else if c.toNat < 0x20 then
    ['\\', 'u', '0', '0', (c.toNat / 16).digitChar, (c.toNat % 16).digitChar]
  else [c]

/-- A string as a literal. -/
def quote (s : String) : List Char := '"' :: s.toList.flatMap escape ++ ['"']

/-! ## Reading -/

/-- The value of a hexadecimal digit. -/
def hexValue? (c : Char) : Option Nat :=
  if '0' ≤ c ∧ c ≤ '9' then some (c.toNat - '0'.toNat)
  else if 'a' ≤ c ∧ c ≤ 'f' then some (c.toNat - 'a'.toNat + 10)
  else if 'A' ≤ c ∧ c ≤ 'F' then some (c.toNat - 'A'.toNat + 10)
  else none

/-- What is wrong where four hexadecimal digits should stand: the four octets are passed, if there
are so many. -/
def codeUnitFault (s : List Char) : Fault :=
  if octets s < 4 then .here .endInString [] else ⟨.invalidEscape, octets s - 4⟩

/-- Four hexadecimal digits. -/
def codeUnit : Reader Nat
  | a :: b :: c :: d :: r =>
    match hexValue? a, hexValue? b, hexValue? c, hexValue? d with
    | some i, some j, some k, some l => .ok (((i * 16 + j) * 16 + k) * 16 + l, r)
    | _, _, _, _ => .error (codeUnitFault (a :: b :: c :: d :: r))
  | s => .error (codeUnitFault s)

/-- The second half of a pair, after the digits of the first. -/
def lowSurrogate (high : Nat) : Reader Char
  | [] => .error (.here .endInString [])
  | c :: r =>
    if c = '\\' then
      match r with
      | [] => .error (.here .endInString [])
      | d :: r' =>
        if d = 'u' then do
          let (low, rest) ← codeUnit r'
          if isLowSurrogate low then .ok (pairedChar high low, rest)
          else .error (.here .loneSurrogate rest)
        else .error (.ahead .unfinishedSurrogate (d :: r'))
    else .error (.ahead .unfinishedSurrogate (c :: r))

/-- A character given by its code, after `\u`. -/
def codedChar : Reader Char := fun s => do
  let (n, r) ← codeUnit s
  if isLowSurrogate n then .error (.here .loneSurrogate r)
  else if isHighSurrogate n then lowSurrogate n r
  else .ok (Char.ofNat n, r)

/-- The characters that have an escape of one letter. -/
def shortEscape? (c : Char) : Option Char :=
  if c = '"' ∨ c = '\\' ∨ c = '/' then some c
  else if c = 'b' then some '\x08'
  else if c = 'f' then some '\x0c'
  else if c = 'n' then some '\n'
  else if c = 'r' then some '\r'
  else if c = 't' then some '\t'
  else none

/-- An escape, after its backslash. -/
def escapeTail : Reader Char
  | [] => .error (.here .endInString [])
  | c :: r =>
    match shortEscape? c with
    | some x => .ok (x, r)
    | none => if c = 'u' then codedChar r else .error (.ahead .invalidEscape (c :: r))

theorem codeUnit_length {s r : List Char} {n : Nat} (h : codeUnit s = .ok (n, r)) :
    r.length < s.length := by
  unfold codeUnit at h
  split at h
  · split at h
    · cases h
      simp only [List.length_cons]
      omega
    · simp at h
  · simp at h

theorem lowSurrogate_length {n : Nat} {s r : List Char} {c : Char}
    (h : lowSurrogate n s = .ok (c, r)) : r.length < s.length := by
  unfold lowSurrogate at h
  split at h
  · simp at h
  · split at h
    · split at h
      · simp at h
      · split at h
        · simp only [bind, Except.bind] at h
          split at h
          · simp at h
          · next v hv =>
            have := codeUnit_length hv
            split at h
            · simp only [Except.ok.injEq, Prod.mk.injEq] at h
              simp only [List.length_cons, ← h.2]
              omega
            · simp at h
        · simp at h
    · simp at h

theorem codedChar_length {s r : List Char} {c : Char} (h : codedChar s = .ok (c, r)) :
    r.length < s.length := by
  simp only [codedChar, bind, Except.bind] at h
  split at h
  · simp at h
  · next v hv =>
    have hl := codeUnit_length hv
    split at h
    · simp at h
    · split at h
      · have := lowSurrogate_length h
        omega
      · cases h
        exact hl

theorem escapeTail_length {s r : List Char} {c : Char} (h : escapeTail s = .ok (c, r)) :
    r.length < s.length := by
  unfold escapeTail at h
  split at h
  · simp at h
  · split at h
    · cases h
      simp
    · split at h
      · have := codedChar_length h
        simp only [List.length_cons]
        omega
      · simp at h

/-- The characters of a string literal up to its closing quote, after those of `before`, which are
given last first. -/
def stringTail (before : List Char) (s : List Char) : Except Fault (List Char × List Char) :=
  match s with
  | [] => .error (.here .endInString [])
  | c :: r =>
    if c = '"' then .ok (before.reverse, r)
    else if c = '\\' then
      match h : escapeTail r with
      | .error fault => .error fault
      | .ok (x, rest) =>
        have : rest.length < r.length := escapeTail_length h
        stringTail (x :: before) rest
    else if c.toNat < 0x20 then .error (.ahead .controlCharacter (c :: r))
    else stringTail (c :: before) r
termination_by s.length

/-- A string literal after its opening quote. -/
def readString : Reader String := fun s => do
  let (cs, r) ← stringTail [] s
  .ok (String.ofList cs, r)

end MusicCatalog.Json
