import MusicCatalog.Json.Compound
import MusicCatalog.Json.Numeral

/-!
# Documents

* `readScalar`, **`readValue`**: any value, with `room` for so many levels of brackets;
* `gather`, `memberOnce`: the member of a key;
* `wrongKind`: the fault where a value of another kind is expected;
* `stringValue`, `listOf`, `objectOf`: values of one kind;
* **`document`**: a whole text with nothing after its value.
-/

namespace MusicCatalog.Json

variable {α : Type}

/-- Brackets may be nested so many levels deep. -/
def maxDepth : Nat := 127

/-! ## Any value -/

/-- A value that has no members. -/
def readScalar : Reader Value
  | [] => .error (.here .endInValue [])
  | c :: r =>
    if c = '"' then do
      let (s, rest) ← readString r
      .ok (.str s, rest)
    else if c = '-' then numeral true r
    else if c.isDigit then numeral false (c :: r)
    else if c = 'n' then do
      let rest ← word ['u', 'l', 'l'] r
      .ok (.null, rest)
    else if c = 't' then do
      let rest ← word ['r', 'u', 'e'] r
      .ok (.bool true, rest)
    else if c = 'f' then do
      let rest ← word ['a', 'l', 's', 'e'] r
      .ok (.bool false, rest)
    else .error (.ahead .expectedValue (c :: r))

/-- A value after a key. -/
def keyed (value : Reader α) : Reader α := fun s => do value (← colon s)

/-- Adds a member to those of `before`, which are given last first. -/
def gather (value : Reader Value) (before : Members) (key : String) : Reader Members := fun s => do
  let (v, rest) ← keyed value s
  .ok ((key, v) :: before, rest)

/-- Reads a member that may occur once; `seen` is what it had before. A second one is found out at
its key. -/
def memberOnce (name : String) (seen : Option α) (value : Reader α) : Reader α := fun s =>
  if seen.isSome then .error (.here (.repeatedField name) (settle '}' s)) else keyed value s

/-- A value whose members are read by `inner`; without it no bracket may open. -/
def valueAround (budget : Nat) (inner : Option (Reader Value)) : Reader Value := fun s =>
  match skipBlanks s with
  | [] => .error (.here .endInValue [])
  | c :: r =>
    if c = '[' then
      match inner with
      | none => .error (.ahead .tooDeep (c :: r))
      | some value => do
        let (items, rest) ← readItems value budget true [] r
        .ok (.arr items, rest)
    else if c = '{' then
      match inner with
      | none => .error (.ahead .tooDeep (c :: r))
      | some value => do
        let (members, rest) ← readMembers (gather value) budget true [] r
        .ok (.obj members.reverse, rest)
    else readScalar (c :: r)

/-- Any value with at most `room` levels of brackets. -/
def readValue (budget : Nat) : (room : Nat) → Reader Value
  | 0 => valueAround budget none
  | room + 1 => valueAround budget (some (readValue budget room))

/-! ## Values of one kind -/

/-- A value, as it is named in a fault. -/
def Value.found : Value → Found
  | .null => .null
  | .bool b => .bool b
  | .int n => .int n.toInt
  | .float x => .float x
  | .str s => .str s
  | .arr _ => .list
  | .obj _ => .object

/-- The fault of a value that is not of the expected kind: a scalar is passed, and its own faults
win; a list or an object is only looked at. -/
def wrongKind (expected : String) : List Char → Fault
  | [] => .here .expectedValue []
  | c :: r =>
    if c = '[' then .here (.wrongKind .list expected) (c :: r)
    else if c = '{' then .here (.wrongKind .object expected) (c :: r)
    else
      match readScalar (c :: r) with
      | .error fault => fault
      | .ok (v, rest) => .here (.wrongKind v.found expected) rest

/-- A string. -/
def stringValue : Reader String := fun s =>
  match skipBlanks s with
  | [] => .error (.here .endInValue [])
  | c :: r => if c = '"' then readString r else .error (wrongKind "a string" (c :: r))

/-- A list of items; its brackets take one level of `room`. -/
def listOf (item : (room : Nat) → Reader α) (budget room : Nat) : Reader (List α) := fun s =>
  match skipBlanks s with
  | [] => .error (.here .endInValue [])
  | c :: r =>
    if c = '[' then
      match room with
      | 0 => .error (.ahead .tooDeep (c :: r))
      | room + 1 => readItems (item room) budget true [] r
    else .error (wrongKind "a sequence" (c :: r))

/-- An object whose members are gathered in a state; its braces take one level of `room`. -/
def objectOf {σ : Type} (expected : String) (member : (room : Nat) → σ → String → Reader σ)
    (start : σ) (budget room : Nat) : Reader σ := fun s =>
  match skipBlanks s with
  | [] => .error (.here .endInValue [])
  | c :: r =>
    if c = '{' then
      match room with
      | 0 => .error (.ahead .tooDeep (c :: r))
      | room + 1 => readMembers (member room) budget true start r
    else .error (wrongKind expected (c :: r))

/-! ## Whole documents -/

/-- A value with nothing but blanks after it. -/
def alone (value : Reader α) (s : List Char) : Except Fault α := do
  let (a, r) ← value s
  match skipBlanks r with
  | [] => .ok a
  | c :: rest => .error (.ahead .trailingCharacters (c :: rest))

/-- Reads a text from its first to its last character; blanks may stand around the value. The reader
is given the budget and the room of the text. -/
def document (value : (budget room : Nat) → Reader α) (text : String) : Except Refusal α :=
  let s := text.toList
  match alone (value s.length maxDepth) s with
  | .ok a => .ok a
  | .error fault => .error (fault.refuse s)

/-- The value a text stands for. -/
def Value.parse (text : String) : Except Refusal Value := document readValue text

end MusicCatalog.Json
