import MusicCatalog.Json.Document

/-!
# Access tiers

* **`Tier`**: a piece is free or for subscribers;
* `Tier.name`, `Tier.ofName?`: the two names;
* `Tier.read`: a name, or an object that has one name as its only key, with `null`.
-/

namespace MusicCatalog

open Json

/-- Who may download a piece. -/
inductive Tier where
  | free
  | pro
deriving DecidableEq

namespace Tier

/-- The name of a tier. -/
def name : Tier → String
  | free => "free"
  | pro => "pro"

/-- The tier of a name. -/
def ofName? (s : String) : Option Tier :=
  if s = "free" then some free else if s = "pro" then some pro else none

/-- Every tier has its name, and no other text is one. -/
theorem ofName?_eq_some_iff {s : String} {t : Tier} : ofName? s = some t ↔ s = t.name := by
  cases t <;> simp only [ofName?, name] <;> split <;> simp_all

/-- The tier whose name, just read, ends where `rest` begins. -/
def named (s : String) (rest : List Char) : Except Fault Tier :=
  match ofName? s with
  | some t => .ok t
  | none => .error (.here (.unknownName s "free" "pro") rest)

/-- The tier that the first key of an object names; an object without keys names none. -/
def key : Reader Tier := fun s => do
  let (k, rest) ← nextKey true s
  match k with
  | some k => .ok (← named k rest, rest)
  | none => .error (.here .expectedValue rest)

/-- The word `null`. -/
def nothing (s : List Char) : Except Fault (List Char) :=
  match skipBlanks s with
  | [] => .error (.here .endInValue [])
  | c :: r =>
    if c = 'n' then word ['u', 'l', 'l'] r else .error (wrongKind "unit" (c :: r))

/-- The closing brace after the only member of an object. -/
def close (s : List Char) : Except Fault (List Char) :=
  match skipBlanks s with
  | [] => .error (.here .endInObject [])
  | c :: r => if c = '}' then .ok r else .error (.here .expectedValue (c :: r))

/-- Reads a tier. -/
def read (room : Nat) : Reader Tier := fun s =>
  match skipBlanks s with
  | [] => .error (.here .endInValue [])
  | c :: r =>
    if c = '"' then do
      let (s, rest) ← readString r
      .ok (← named s rest, rest)
    else if c = '{' then
      match room with
      | 0 => .error (.ahead .tooDeep (c :: r))
      | _ + 1 => do
        let (t, afterKey) ← key r
        let value ← colon afterKey
        let rest ← nothing value
        .ok (t, ← close rest)
    else .error (.ahead .expectedValue (c :: r))

/-- The tier a text stands for. -/
def parse (text : String) : Except Refusal Tier := document (fun _ room => read room) text

end Tier

end MusicCatalog
