import MusicCatalog.Json.StringLiteral

/-!
# Lists and objects

What stands between the brackets is read by one loop for lists and one for objects, whatever the
items are. Every round takes at least one character, so a `budget` of as many rounds as the document
has characters is never used up.

* `nextItem`, **`readItems`**: the items of a list;
* `nextKey`, `colon`, **`readMembers`**: the members of an object, with a state that each member may
  look at;
* `settle`: the text after a closing bracket that may already be next.
-/

namespace MusicCatalog.Json

variable {α σ : Type}

/-! ## Lists -/

/-- The next item of a list, or `none` and the text after the closing bracket. A comma stands before
every item but the first. -/
def nextItem (item : Reader α) (first : Bool) : Reader (Option α) := fun s =>
  match skipBlanks s with
  | [] => .error (.here .endInList [])
  | c :: r =>
    if c = ']' then .ok (none, r)
    else if first then do
      let (a, rest) ← item (c :: r)
      .ok (some a, rest)
    else if c = ',' then
      match skipBlanks r with
      | [] => .error (.here .endInValue [])
      | d :: r' =>
        if d = ']' then .error (.ahead .trailingComma (d :: r'))
        else do
          let (a, rest) ← item (d :: r')
          .ok (some a, rest)
    else .error (.ahead .expectedListEnd (c :: r))

/-- The items of a list up to its closing bracket, after those of `before`, given last first. -/
def readItems (item : Reader α) : (budget : Nat) → (first : Bool) → (before : List α) →
    Reader (List α)
  | 0, _, _, s => .error (.ahead .endInList s)
  | budget + 1, first, before, s => do
    let (next, r) ← nextItem item first s
    match next with
    | none => .ok (before.reverse, r)
    | some a => readItems item budget false (a :: before) r

/-- The end of a list that may have no further items. -/
def listEnd (s : List Char) : Except Fault (List Char) :=
  match skipBlanks s with
  | [] => .error (.here .endInList [])
  | c :: r =>
    if c = ']' then .ok r
    else if c = ',' then
      match skipBlanks r with
      | [] => .error (.here .trailingCharacters [])
      | d :: r' =>
        if d = ']' then .error (.ahead .trailingComma (d :: r'))
        else .error (.ahead .trailingCharacters (d :: r'))
    else .error (.ahead .trailingCharacters (c :: r))

/-! ## Objects -/

/-- The next key of an object, or `none` and the text after the closing brace. A comma stands before
every key but the first. -/
def nextKey (first : Bool) : Reader (Option String) := fun s =>
  match skipBlanks s with
  | [] => .error (.here .endInObject [])
  | c :: r =>
    if c = '}' then .ok (none, r)
    else if first then
      if c = '"' then do
        let (k, rest) ← readString r
        .ok (some k, rest)
      else .error (.ahead .keyNotString (c :: r))
    else if c = ',' then
      match skipBlanks r with
      | [] => .error (.here .endInValue [])
      | d :: r' =>
        if d = '"' then do
          let (k, rest) ← readString r'
          .ok (some k, rest)
        else if d = '}' then .error (.ahead .trailingComma (d :: r'))
        else .error (.ahead .keyNotString (d :: r'))
    else .error (.ahead .expectedObjectEnd (c :: r))

/-- The colon between a key and its value. -/
def colon (s : List Char) : Except Fault (List Char) :=
  match skipBlanks s with
  | [] => .error (.here .endInObject [])
  | c :: r => if c = ':' then .ok r else .error (.ahead .expectedColon (c :: r))

/-- The members of an object up to its closing brace. `member` reads on from a key, and turns the
state before the member into the state after it. -/
def readMembers (member : σ → String → Reader σ) : (budget : Nat) → (first : Bool) → σ → Reader σ
  | 0, _, _, s => .error (.ahead .endInObject s)
  | budget + 1, first, state, s => do
    let (key, r) ← nextKey first s
    match key with
    | none => .ok (state, r)
    | some k => do
      let (state, rest) ← member state k r
      readMembers member budget false state rest

/-- What is left once blanks and the closing bracket, if it is next, are passed. -/
def settle (close : Char) (s : List Char) : List Char :=
  match skipBlanks s with
  | [] => []
  | c :: r => if c = close then r else c :: r

end MusicCatalog.Json
