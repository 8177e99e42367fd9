import MusicCatalog.Json.Numeral
import MusicCatalog.Json.StringLiteral

/-!
# Written form

A layout says what stands around the members of a list or an object: nothing, or a new line with two
spaces for every level. Lists and objects are put together from members that are already written, so
a document may be made of values and of anything else that has a written form.

* `Layout`, `Layout.compact`, `Layout.indented`;
* `Layout.list`, `Layout.object`: brackets around written members;
* **`Value.write`**: the written form of a value;
* `Value.compact`: the form without any blanks, as a text.
-/

namespace MusicCatalog.Json

/-- What stands before a member at a level, and after the colon of a key. -/
structure Layout where
  gap : (level : Nat) → List Char
  afterColon : List Char

namespace Layout

/-- No blanks at all. -/
def compact : Layout := ⟨fun _ => [], []⟩

/-- A line for every member, two spaces for every level. -/
def indented : Layout := ⟨fun level => '\n' :: List.replicate (2 * level) ' ', [' ']⟩

variable (l : Layout)

/-- The members after the first, each after a comma. -/
def more (level : Nat) : List (List Char) → List Char
  | [] => []
  | m :: ms => ',' :: l.gap level ++ m ++ more level ms

/-- Members between brackets; `level` is that of the brackets. Without members there are no
blanks. -/
def enclose (opening closing : Char) (level : Nat) : List (List Char) → List Char
  | [] => [opening, closing]
  | m :: ms =>
    opening :: l.gap (level + 1) ++ m ++ l.more (level + 1) ms ++ l.gap level ++ [closing]

/-- A list of written items. -/
def list (level : Nat) (items : List (List Char)) : List Char := l.enclose '[' ']' level items

/-- A key with a written value. -/
def member (key : String) (value : List Char) : List Char :=
  quote key ++ ':' :: l.afterColon ++ value

/-- An object of keys with written values. -/
def object (level : Nat) (members : List (String × List Char)) : List Char :=
  l.enclose '{' '}' level (members.map fun m => l.member m.1 m.2)

end Layout

mutual

/-- The written form of a value whose brackets stand at a level. -/
def Value.write (l : Layout) (level : Nat) : Value → List Char
  | .null => ['n', 'u', 'l', 'l']
  | .bool b => if b then ['t', 'r', 'u', 'e'] else ['f', 'a', 'l', 's', 'e']
  | .int n => n.spell
  | .float x => x.spell
  | .str s => quote s
  | .arr items => l.list level (writeItems l (level + 1) items)
  | .obj members => l.object level (writeMembers l (level + 1) members)

/-- The written forms of a list of values. -/
def writeItems (l : Layout) (level : Nat) : List Value → List (List Char)
  | [] => []
  | v :: vs => v.write l level :: writeItems l level vs

/-- Keys with the written forms of their values. -/
def writeMembers (l : Layout) (level : Nat) : Members → List (String × List Char)
  | [] => []
  | (k, v) :: ms => (k, v.write l level) :: writeMembers l level ms

end

/-- The items of a list are written one by one. -/
theorem writeItems_eq_map (l : Layout) (level : Nat) (vs : List Value) :
    writeItems l level vs = vs.map (·.write l level) := by
  induction vs with
  | nil => rfl
  | cons v vs ih => simp [writeItems, ih]

/-- The members of an object are written one by one. -/
theorem writeMembers_eq_map (l : Layout) (level : Nat) (ms : Members) :
    writeMembers l level ms = ms.map fun m => (m.1, m.2.write l level) := by
  induction ms with
  | nil => rfl
  | cons m ms ih => simp [writeMembers, ih]

/-- A value without any blanks. -/
def Value.compact (v : Value) : String := String.ofList (v.write .compact 0)

end MusicCatalog.Json
