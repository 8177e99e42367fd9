import MusicCatalog.Piece
import MusicCatalog.Tier

/-!
# Catalog entries

An entry is a piece with its access tier and two links. It is written as the object of the piece
with three more keys at its end, so the piece itself must not have these.

* `Entry.ownKeys`: the three keys;
* **`Entry`**, `Entry.attach`: an entry, and the entry made from any piece;
* `Entry.toValue`, `Entry.compact`: the written object;
* `Entry.read`: the reader, which sends every other key to the piece.
-/

namespace MusicCatalog

open Json

/-- A piece with its tier and its links. -/
structure Entry where
  piece : Piece
  tier : Tier
  downloadUrl : String
  pageUrl : String

namespace Entry

/-- The keys that an entry adds to its piece. -/
def ownKeys : List String := ["access", "download_url", "metadata_url"]

/-- The entry of a piece. What the piece had under one of the own keys is dropped, so that every key
is written once. -/
def attach (piece : Piece) (tier : Tier) (downloadUrl pageUrl : String) : Entry :=
  ⟨piece.without ownKeys, tier, downloadUrl, pageUrl⟩

variable (e : Entry)

/-- The piece may be downloaded by everyone. -/
def isFree : Bool := e.tier == .free

/-- The members of the written object: those of the piece, then the own ones. -/
def members : Members :=
  e.piece.fields ++
    [("access", .str e.tier.name), ("download_url", .str e.downloadUrl),
      ("metadata_url", .str e.pageUrl)]

/-- The entry as a value, its keys in the written order. -/
def toValue : Value := .obj e.members

/-- The entry as JSON text without blanks. -/
def compact : String := e.toValue.compact

/-- Equality of the piece, the tier and the links. -/
def same (f : Entry) : Bool :=
  e.piece.same f.piece && e.tier == f.tier && e.downloadUrl == f.downloadUrl &&
    e.pageUrl == f.pageUrl

/-! ## Reading -/

/-- What has been read of an entry: the own members, and all others, last first. -/
structure Parts where
  tier : Option Tier
  downloadUrl : Option String
  pageUrl : Option String
  others : Members

/-- Nothing has been read. -/
def Parts.none : Parts := ⟨.none, .none, .none, []⟩

/-- Reads a member of an entry, from its key. -/
def readMember (budget room : Nat) (parts : Parts) (key : String) : Reader Parts := fun s =>
  if key = "access" then do
    let (t, rest) ← memberOnce key parts.tier (Tier.read room) s
    .ok ({ parts with tier := some t }, rest)
  else if key = "download_url" then do
    let (u, rest) ← memberOnce key parts.downloadUrl stringValue s
    .ok ({ parts with downloadUrl := some u }, rest)
  else if key = "metadata_url" then do
    let (u, rest) ← memberOnce key parts.pageUrl stringValue s
    .ok ({ parts with pageUrl := some u }, rest)
  else do
    let (others, rest) ← gather (readValue budget room) parts.others key s
    .ok ({ parts with others := others }, rest)

/-- The entry of its parts, or the first own member that is missing. -/
def Parts.entry (parts : Parts) : Except Reason Entry := do
  let some tier := parts.tier | .error (.missingField "access")
  let some downloadUrl := parts.downloadUrl | .error (.missingField "download_url")
  let some pageUrl := parts.pageUrl | .error (.missingField "metadata_url")
  .ok ⟨.ofMembers parts.others.reverse, tier, downloadUrl, pageUrl⟩

/-- Reads an entry. -/
def read (budget room : Nat) : Reader Entry := fun s => do
  let (parts, rest) ← objectOf "struct EnrichedPiece" (readMember budget) .none budget room s
  match parts.entry with
  | .ok e => .ok (e, rest)
  | .error reason => .error (.here reason rest)

/-- The entry a text stands for. -/
def parse (text : String) : Except Refusal Entry := document read text

end Entry

end MusicCatalog
