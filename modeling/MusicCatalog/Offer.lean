import MusicCatalog.Entry
import MusicCatalog.Failure
import MusicCatalog.Random.Sample
import MusicCatalog.Random.Shuffle
import MusicCatalog.Site

/-!
# Which pieces are free

A number of pieces is chosen by chance to be free, the others are for subscribers. Every piece also
gets its links.

* `Selection`: pieces are chosen by position, or together with all pieces equal to them;
* `OfferRule`: the number of pieces, and how they are chosen;
* `OfferRule.freeFlags`: which pieces are free;
* **`OfferRule.entries`**: the catalog entries, if every piece has a file name.
-/

namespace MusicCatalog

/-- How free pieces are chosen. -/
inductive Selection where
  /-- By position: exactly so many as there are slots. -/
  | index
  /-- Whatever is equal to a chosen piece is free too. -/
  | equality
deriving DecidableEq

/-- The name of a selection. -/
def Selection.name : Selection → String
  | index => "index"
  | equality => "equality"

/-- How many pieces are chosen to be free, and how. -/
structure OfferRule where
  freeSlots : UInt64
  selection : Selection
deriving DecidableEq

namespace OfferRule

/-- Four pieces, by position. -/
def standard : OfferRule := ⟨4, .index⟩

variable (rule : OfferRule)

/-- The number of pieces to choose from so many. -/
def amount (count : Nat) : Nat := min rule.freeSlots.toNat count

/-- For each piece, whether it is free. -/
def freeFlags (pieces : List Piece) (w : Random.Words) : List Bool :=
  let amount := rule.amount pieces.length
  match rule.selection with
  | .index =>
    let chosen := Random.sample pieces.length amount w
    (List.range pieces.length).map fun i => chosen.contains i
  | .equality =>
    let chosen := (Random.shuffle pieces.toArray w).toList.take amount
    pieces.map fun p => chosen.any p.same

/-- The position of the first piece without a file name. -/
def firstNameless? (pieces : List Piece) : Option Nat :=
  pieces.findIdx? fun p => p.filename?.isNone

/-- The entry of a piece. -/
def entry (links : Links) (piece : Piece) (isFree : Bool) : Entry :=
  let filename := piece.filename?.getD ""
  .attach piece (if isFree then .free else .pro) (links.download filename) (links.page filename)

/-- The entries of some pieces, in their order. -/
def entries (links : Links) (pieces : List Piece) (w : Random.Words) : Except Failure (List Entry) :=
  match firstNameless? pieces with
  | some position => .error (.noFilename position)
  | none => .ok (pieces.zipWith (entry links) (rule.freeFlags pieces w))

end OfferRule

end MusicCatalog
