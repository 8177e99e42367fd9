/-!
# Ranges of code points

* `Ranges`, **`Ranges.has`**: a set of characters as a list of first and last code points.
-/

namespace MusicCatalog.Text

/-- A set of characters, given by the first and last code points of its runs. -/
abbrev Ranges := List (Nat × Nat)

/-- The character is in one of the runs. -/
def Ranges.has (rs : Ranges) (c : Char) : Bool :=
  rs.any fun r => r.1 ≤ c.toNat && c.toNat ≤ r.2

end MusicCatalog.Text
