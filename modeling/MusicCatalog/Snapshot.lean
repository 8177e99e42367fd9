import MusicCatalog.Entry
import MusicCatalog.Json.Skip

/-!
# Snapshots

A snapshot is the catalog as it is kept in a file: a time stamp, two counts and the entries. The
counts are written down and read back as they are, whether they agree with the entries or not.

* **`Snapshot`**, `Snapshot.stamped`: a snapshot, and the one that counts its entries;
* `Snapshot.proCount?`: the entries that are not free;
* `Snapshot.render`: the text of the file;
* `Snapshot.read`: the reader, for an object with its keys in any order, or a list of four values.
-/

namespace MusicCatalog

open Json

/-- A dated catalog. -/
structure Snapshot where
  generatedAt : String
  totalPieces : Nat
  freeCount : Nat
  pieces : List Entry

namespace Snapshot

/-- The snapshot of some entries, with their counts. -/
def stamped (generatedAt : String) (pieces : List Entry) : Snapshot :=
  ⟨generatedAt, pieces.length, pieces.countP Entry.isFree, pieces⟩

variable (s : Snapshot)

/-- The count of entries that are not free; there is none if more are free than there are. -/
def proCount? : Option Nat :=
  if s.freeCount ≤ s.totalPieces then some (s.totalPieces - s.freeCount) else none

/-- A snapshot that has counted its own entries has a count of those that are not free. -/
theorem proCount?_stamped (generatedAt : String) (pieces : List Entry) :
    (stamped generatedAt pieces).proCount? =
      some (pieces.countP fun e => !e.isFree) := by
  have h := List.length_eq_countP_add_countP Entry.isFree (l := pieces)
  have hle : (stamped generatedAt pieces).freeCount ≤ (stamped generatedAt pieces).totalPieces := by
    change pieces.countP Entry.isFree ≤ pieces.length
    omega
  rw [proCount?, if_pos hle]
  change some (pieces.length - pieces.countP Entry.isFree) = _
  simp [h]

/-- Equality of the stamp, the counts and the entries. -/
def same (t : Snapshot) : Bool :=
  s.generatedAt == t.generatedAt && s.totalPieces == t.totalPieces && s.freeCount == t.freeCount &&
    sameEntries s.pieces t.pieces
where
  /-- Equality of two lists of entries. -/
  sameEntries : List Entry → List Entry → Bool
    | [], [] => true
    | e :: es, f :: fs => e.same f && sameEntries es fs
    | _, _ => false

/-- The written form, its keys in a fixed order. -/
def write (l : Layout) : List Char :=
  l.object 0
    [("generated_at", quote s.generatedAt),
      ("total_pieces", spellNat s.totalPieces),
      ("free_count", spellNat s.freeCount),
      ("pieces", l.list 1 (s.pieces.map fun e => e.toValue.write l 2))]

/-- The text of the file. -/
def render : String := String.ofList (s.write .indented)

/-! ## Reading -/

/-- The name of a snapshot in faults. -/
def kind : String := "struct CatalogSnapshot"

/-- Reads a count. -/
def readCount : Reader Nat := fun s =>
  match skipBlanks s with
  | [] => .error (.here .endInValue [])
  | c :: r =>
    if c = '-' ∨ c.isDigit then do
      let (v, rest) ← readScalar (c :: r)
      match v with
      | .int n =>
        if 0 ≤ n.toInt then .ok (n.toInt.toNat, rest)
        else .error (.here (.wrongInteger n.toInt "usize") rest)
      | _ => .error (.here (.wrongKind v.found "usize") rest)
    else .error (wrongKind "usize" (c :: r))

/-- What has been read of a snapshot. -/
structure Parts where
  generatedAt : Option String
  totalPieces : Option Nat
  freeCount : Option Nat
  pieces : Option (List Entry)

/-- Nothing has been read. -/
def Parts.none : Parts := ⟨.none, .none, .none, .none⟩

/-- The entries of a snapshot. -/
def readEntries (budget room : Nat) : Reader (List Entry) := listOf (Entry.read budget) budget room

/-- Reads a member of a snapshot, from its key. Members with other keys are passed over. -/
def readMember (budget room : Nat) (parts : Parts) (key : String) : Reader Parts := fun s =>
  if key = "generated_at" then do
    let (v, rest) ← memberOnce key parts.generatedAt stringValue s
    .ok ({ parts with generatedAt := some v }, rest)
  else if key = "total_pieces" then do
    let (v, rest) ← memberOnce key parts.totalPieces readCount s
    .ok ({ parts with totalPieces := some v }, rest)
  else if key = "free_count" then do
    let (v, rest) ← memberOnce key parts.freeCount readCount s
    .ok ({ parts with freeCount := some v }, rest)
  else if key = "pieces" then do
    let (v, rest) ← memberOnce key parts.pieces (readEntries budget room) s
    .ok ({ parts with pieces := some v }, rest)
  else do
    let rest ← skipValue (2 * budget + 1) (← colon s)
    .ok (parts, rest)

/-- The snapshot of its parts, or the first one that is missing. -/
def Parts.snapshot (parts : Parts) : Except Reason Snapshot := do
  let some generatedAt := parts.generatedAt | .error (.missingField "generated_at")
  let some totalPieces := parts.totalPieces | .error (.missingField "total_pieces")
  let some freeCount := parts.freeCount | .error (.missingField "free_count")
  let some pieces := parts.pieces | .error (.missingField "pieces")
  .ok ⟨generatedAt, totalPieces, freeCount, pieces⟩

/-- The next of the four values of a list, of which `count` have been read. -/
def element {α : Type} (value : Reader α) (count : Nat) : Reader α := fun s => do
  let (next, rest) ← nextItem value (count == 0) s
  match next with
  | some v => .ok (v, rest)
  | none => .error (.here (.wrongLength count (kind ++ " with 4 elements")) rest)

/-- Reads a snapshot given as a list of its four values, after the opening bracket. -/
def readElements (budget room : Nat) : Reader Snapshot := fun s => do
  let (generatedAt, s) ← element stringValue 0 s
  let (totalPieces, s) ← element readCount 1 s
  let (freeCount, s) ← element readCount 2 s
  let (pieces, s) ← element (readEntries budget room) 3 s
  .ok (⟨generatedAt, totalPieces, freeCount, pieces⟩, ← listEnd s)

/-- Reads a snapshot. -/
def read (budget room : Nat) : Reader Snapshot := fun s =>
  match skipBlanks s with
  | [] => .error (.here .endInValue [])
  | c :: r =>
    if c = '[' then
      match room with
      | 0 => .error (.ahead .tooDeep (c :: r))
      | room + 1 => readElements budget room r
    else do
      let (parts, rest) ← objectOf kind (readMember budget) .none budget room (c :: r)
      match parts.snapshot with
      | .ok snapshot => .ok (snapshot, rest)
      | .error reason => .error (.here reason rest)

/-- The snapshot a text stands for. -/
def parse (text : String) : Except Refusal Snapshot := document read text

end Snapshot

end MusicCatalog
