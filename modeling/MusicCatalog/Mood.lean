import MusicCatalog.Piece
import MusicCatalog.Text.Lowercase

/-!
# Choosing pieces by mood

* `occursIn`: a text is somewhere in another;
* `Piece.hasMood`: the description of a piece, in lowercase, mentions one of some keywords;
* **`byMood`**: the pieces that do, in their order.
-/

namespace MusicCatalog

open Text Json

/-- The characters of `part` stand together somewhere in a text. -/
def occursIn (part : List Char) : List Char → Bool
  | [] => part.isEmpty
  | c :: r => part.isPrefixOf (c :: r) || occursIn part r

/-- A text occurs in another exactly when it is an infix of it. -/
theorem occursIn_iff {part whole : List Char} : occursIn part whole ↔ part <:+: whole := by
  induction whole with
  | nil => simp [occursIn]
  | cons c r ih => simp [occursIn, ih, List.infix_cons_iff]

/-- The lowercase form of the description contains one of the keywords, which are in lowercase
already. -/
def Piece.hasMood (lowered : List String) (p : Piece) : Bool :=
  let feel := lowerList p.feel.toList
  lowered.any fun mood => occursIn mood.toList feel

/-- The pieces that have one of the moods. Neither capitals in a description nor in a mood matter. -/
def byMood (moods : List String) (pieces : List Piece) : List Piece :=
  let lowered := moods.map lowercase
  pieces.filter (·.hasMood lowered)

end MusicCatalog
