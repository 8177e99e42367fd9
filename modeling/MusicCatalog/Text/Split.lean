/-!
# Parts of a text

* **`split`**: a text taken apart where a separator stands.
-/

namespace MusicCatalog.Text

/-- The parts of a text between separators. There is one more of them than of these. -/
def split (separator : Char) : List Char → List (List Char)
  | [] => [[]]
  | c :: r =>
    if c = separator then [] :: split separator r
    else
      match split separator r with
      | [] => [[c]]
      | p :: ps => (c :: p) :: ps

end MusicCatalog.Text
