import MusicCatalog.Json.Document
import MusicCatalog.Json.Layout

/-!
# Pieces of music

A piece is a JSON object as the site lists it. All its fields are kept; only `filename` and `feel`
have a meaning here.

* **`Piece`**: the fields in canonical form;
* `Piece.ofMembers`, `Piece.ofValue?`: the piece of an object;
* `Piece.filename?`, `Piece.feel`: the fields with a meaning;
* `Piece.without`: a piece less some fields;
* `Piece.same`, `Piece.compact`, `Piece.read`: equality, written form, reader.
-/

namespace MusicCatalog

open Json

/-- An entry of the site's listing. -/
structure Piece where
  fields : Members
  canonical : MembersCanonical fields

namespace Piece

/-- The piece with the members of an object; of a repeated key the last value counts. -/
def ofMembers (members : Members) : Piece :=
  ⟨canonicalMembers members, canonicalMembers_canonical members⟩

/-- The piece of a value, if that is an object. -/
def ofValue? : Value → Option Piece
  | .obj members => some (ofMembers members)
  | _ => none

variable (p : Piece)

/-- The piece as a value. -/
def toValue : Value := .obj p.fields

/-- The value of a field. -/
def get? (key : String) : Option Value := p.fields.lookup key

/-- The name of the audio file, if there is one and it is a string. -/
def filename? : Option String :=
  match p.get? "filename" with
  | some (.str s) => some s
  | _ => none

/-- The description of the piece's mood. A missing one, or one that is no string, is empty. -/
def feel : String :=
  match p.get? "feel" with
  | some (.str s) => s
  | _ => ""

/-- Equality of all fields. -/
def same (q : Piece) : Bool := sameMembers p.fields q.fields

/-- The piece as JSON text without blanks. -/
def compact : String := p.toValue.compact

/-- The piece less the fields of some names. -/
def without (names : List String) : Piece :=
  ⟨p.fields.filter fun m => !names.contains m.1, MembersCanonical.filter p.canonical _⟩

/-- Reads a piece. -/
def read (budget room : Nat) : Reader Piece := fun s => do
  let (members, rest) ←
    objectOf "a map" (fun room => gather (readValue budget room)) [] budget room s
  .ok (ofMembers members.reverse, rest)

/-- Reads a list of pieces. -/
def readList (budget room : Nat) : Reader (List Piece) := listOf (read budget) budget room

/-- The piece a text stands for. -/
def parse (text : String) : Except Refusal Piece := document read text

/-- The pieces a text stands for. -/
def parseList (text : String) : Except Refusal (List Piece) := document readList text

end Piece

end MusicCatalog
