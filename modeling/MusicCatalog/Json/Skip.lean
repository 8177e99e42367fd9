import MusicCatalog.Json.Document

/-!
# Values that are passed over

A value nobody asked for is only followed to its end. Its tokens are checked, but not how deeply it
is nested, how large its numbers are, or whether its surrogates come in pairs.

* `skipString`, `skipNumeral`: the tokens;
* **`skipValue`**: any value. Each step of `budget` is a bracket or an item, so twice the length of
  the text is enough.
-/

namespace MusicCatalog.Json

/-! ## Tokens -/

/-- Passes an escape, after its backslash. -/
def skipEscape : List Char → Except Fault (List Char)
  | [] => .error (.here .endInString [])
  | c :: r =>
    if (shortEscape? c).isSome then .ok r
    else if c = 'u' then do
      let (_, rest) ← codeUnit r
      .ok rest
    else .error (.ahead .invalidEscape (c :: r))

theorem skipEscape_length {s r : List Char} (h : skipEscape s = .ok r) : r.length < s.length := by
  unfold skipEscape at h
  split at h
  · simp at h
  · split at h
    · cases h
      simp
    · split at h
      · simp only [bind, Except.bind] at h
        split at h
        · simp at h
        · next v hv =>
          have := codeUnit_length hv
          cases h
          simp only [List.length_cons]
          omega
      · simp at h

/-- Passes a string literal, after its opening quote. A control character is not passed. -/
def skipString (s : List Char) : Except Fault (List Char) :=
  match s with
  | [] => .error (.here .endInString [])
  | c :: r =>
    if c = '"' then .ok r
    else if c = '\\' then
      match h : skipEscape r with
      | .error fault => .error fault
      | .ok rest =>
        have : rest.length < r.length := skipEscape_length h
        skipString rest
    else if c.toNat < 0x20 then .error (.here .controlCharacter (c :: r))
    else skipString r
termination_by s.length

/-- Passes the digits of an exponent, after its letter. -/
def skipExponent (s : List Char) : Except Fault (List Char) :=
  let digits : List Char :=
    match s with
    | [] => []
    | c :: r => if c = '+' ∨ c = '-' then r else c :: r
  match digits with
  | [] => .error (.here .invalidNumber [])
  | c :: r =>
    if c.isDigit then .ok (r.dropWhile Char.isDigit) else .error (.ahead .invalidNumber (c :: r))

/-- Passes an exponent, if there is one. -/
def skipFractionEnd : List Char → Except Fault (List Char)
  | [] => .ok []
  | c :: r => if c = 'e' ∨ c = 'E' then skipExponent r else .ok (c :: r)

/-- Passes a fraction and an exponent, if there are any. -/
def skipAfterWhole : List Char → Except Fault (List Char)
  | [] => .ok []
  | c :: r =>
    if c = '.' then
      match r with
      | [] => .error (.here .invalidNumber [])
      | d :: r' =>
        if d.isDigit then skipFractionEnd (r'.dropWhile Char.isDigit)
        else .error (.ahead .invalidNumber (d :: r'))
    else skipFractionEnd (c :: r)

/-- Passes a numeral, after its sign. -/
def skipNumeral : List Char → Except Fault (List Char)
  | [] => .error (.here .invalidNumber [])
  | c :: r =>
    if c = '0' then
      match r with
      | [] => .ok []
      | d :: r' =>
        if d.isDigit then .error (.ahead .invalidNumber (d :: r')) else skipAfterWhole (d :: r')
    else if c.isDigit then skipAfterWhole (r.dropWhile Char.isDigit)
    else .error (.ahead .invalidNumber (c :: r))

/-- Passes a value without members. -/
def skipScalar : List Char → Except Fault (List Char)
  | [] => .error (.here .endInValue [])
  | c :: r =>
    if c = '"' then skipString r
    else if c = '-' then skipNumeral r
    else if c.isDigit then skipNumeral (c :: r)
    else if c = 'n' then word ['u', 'l', 'l'] r
    else if c = 't' then word ['r', 'u', 'e'] r
    else if c = 'f' then word ['a', 'l', 's', 'e'] r
    else .error (.ahead .expectedValue (c :: r))

/-! ## Values -/

mutual

/-- Passes a value. -/
def skipValue : (budget : Nat) → List Char → Except Fault (List Char)
  | 0, s => .error (.ahead .endInValue s)
  | budget + 1, s =>
    match skipBlanks s with
    | [] => .error (.here .endInValue [])
    | c :: r =>
      if c = '[' then
        match skipBlanks r with
        | [] => .error (.here .endInList [])
        | d :: r' => if d = ']' then .ok r' else skipItems budget (d :: r')
      else if c = '{' then
        match skipBlanks r with
        | [] => .error (.here .endInObject [])
        | d :: r' => if d = '}' then .ok r' else skipMembers budget (d :: r')
      else skipScalar (c :: r)

/-- Passes the items of a list from the start of one, up to its closing bracket. -/
def skipItems : (budget : Nat) → List Char → Except Fault (List Char)
  | 0, s => .error (.ahead .endInList s)
  | budget + 1, s => do
    let r ← skipValue budget s
    match skipBlanks r with
    | [] => .error (.here .endInList [])
    | c :: r' =>
      if c = ',' then skipItems budget r'
      else if c = ']' then .ok r'
      else .error (.ahead .expectedListEnd (c :: r'))

/-- Passes the members of an object from the start of one, up to its closing brace. -/
def skipMembers : (budget : Nat) → List Char → Except Fault (List Char)
  | 0, s => .error (.ahead .endInObject s)
  | budget + 1, s =>
    match skipBlanks s with
    | [] => .error (.here .endInObject [])
    | c :: r =>
      if c = '"' then do
        let afterKey ← skipString r
        let value ← colon afterKey
        let rest ← skipValue budget value
        match skipBlanks rest with
        | [] => .error (.here .endInObject [])
        | d :: r' =>
          if d = ',' then skipMembers budget r'
          else if d = '}' then .ok r'
          else .error (.ahead .expectedObjectEnd (d :: r'))
      else .error (.ahead .keyNotString (c :: r))

end

end MusicCatalog.Json
