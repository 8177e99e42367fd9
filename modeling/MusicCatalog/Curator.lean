import MusicCatalog.Files.Tree
import MusicCatalog.Listing
import MusicCatalog.Offer
import MusicCatalog.Snapshot

/-!
# Making a catalog

A curator fetches the listing, keeps the first pieces that have one of its moods, makes some of them
free, and writes the dated result to a file.

* **`Curator`**, `Curator.ofSite`: the settings, and those to begin with;
* `Curator.candidates`, `Curator.snapshot`: the pieces that are kept, and the catalog of them;
* `writeFile`, `save`: writes a text, or a snapshot;
* `Curator.make`: a catalog is made and written, by any way to write a file;
* **`Curator.run`**: everything, with a `Report`, where the files are a tree.
-/

namespace MusicCatalog

open Files

/-- The settings of a catalog. -/
structure Curator where
  client : Client
  moods : List String
  limit : UInt64
  rule : OfferRule
  outputPath : String

/-- What a run has written, and where. -/
structure Report where
  outputPath : String
  totalPieces : Nat
  freeCount : Nat
  proCount : Nat
deriving DecidableEq

/-- Writes a text to a file, whose directory must exist. -/
def writeFile (path text : String) (files : Tree) : Except Failure Tree :=
  match files.write path text with
  | .ok files => .ok files
  | .error cause => .error (.file cause)

/-- Writes a snapshot to a file. -/
def save (path : String) (snapshot : Snapshot) (files : Tree) : Except Failure Tree :=
  writeFile path snapshot.render files

namespace Curator

/-- The moods unless told otherwise. -/
def standardMoods : List String := ["bright", "relaxed", "uplifting"]

/-- The largest number of pieces unless told otherwise. -/
def standardLimit : UInt64 := 20

/-- The file unless told otherwise. -/
def standardPath : String := "../../extras/mood_music_catalog.json"

/-- The settings for a site to begin with. -/
def ofSite (site : Site) : Except Failure Curator := do
  .ok ⟨← Client.ofSite site, standardMoods, standardLimit, .standard, standardPath⟩

variable (c : Curator)

/-- The first pieces of the listing that have one of the moods. -/
def candidates (web : Web) : Except Failure (List Piece) := do
  .ok ((← c.client.fetchByMood c.moods web).take c.limit.toNat)

/-- The catalog of the candidates, dated `now`. -/
def snapshot (web : Web) (w : Random.Words) (now : String) : Except Failure Snapshot := do
  let pieces ← c.candidates web
  .ok (.stamped now (← c.rule.entries (.ofSite c.client.site) pieces w))

/-- The report on a snapshot. -/
def report (s : Snapshot) : Report :=
  ⟨c.outputPath, s.totalPieces, s.freeCount, s.proCount?.getD 0⟩

/-- Makes a catalog and writes it, as `write` writes a text to a file. -/
def make {m : Type → Type} [Monad m] [MonadExceptOf Failure m] (write : (path text : String) → m Unit)
    (web : Web) (w : Random.Words) (now : String) : m Report := do
  let s ← MonadExcept.ofExcept (c.snapshot web w now)
  write c.outputPath s.render
  return c.report s

/-- Makes a catalog and writes it to a tree of files. -/
def run (web : Web) (w : Random.Words) (now : String) (files : Tree) :
    Except Failure (Report × Tree) :=
  let write (path text : String) : StateT Tree (Except Failure) Unit := fun files => do
    return ((), ← writeFile path text files)
  (c.make write web w now).run files

end Curator

end MusicCatalog
