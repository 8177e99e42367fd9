import MusicCatalog.Failure
import MusicCatalog.Text.Split

/-!
# Paths

* `Step`: what one part of a path says to do;
* **`Path`**, `Path.ofText`: a path that may be followed, or why it may not even be tried.
-/

namespace MusicCatalog.Files

/-- One part of a path. -/
inductive Step where
  | stay
  | up
  | down (name : String)
deriving DecidableEq

/-- A path: where it begins, its parts, and whether a slash stands at its end. -/
structure Path where
  absolute : Bool
  steps : List Step
  slashed : Bool

/-- What a part of a path says. -/
def Step.ofName (name : List Char) : Step :=
  if name = ['.'] then .stay else if name = ['.', '.'] then .up else .down (String.ofList name)

/-- So many octets are too many for a path. -/
def pathLimit : Nat := 4096

/-- More octets are too many for a name. -/
def nameLimit : Nat := 255

/-- The path a text stands for. Slashes that follow each other count as one. -/
def Path.ofText (text : String) : Except FileCause Path :=
  let cs := text.toList
  if cs.contains '\x00' then .error .nulInName
  else if cs = [] then .error .noSuchEntry
  else if pathLimit ≤ text.utf8ByteSize then .error .nameTooLong
  else
    .ok
      { absolute := cs.head? == some '/'
        steps := ((Text.split '/' cs).filter (!·.isEmpty)).map Step.ofName
        slashed := cs.getLast? == some '/' }

end MusicCatalog.Files
