import MusicCatalog.CommandLine
import Std.Time

/-!
# The program

Makes a catalog as its arguments say. The answer of the site comes on standard input, its status in
the first line and its body in the rest; an empty input means that no connection was made.

* `exchange`, `words`, `now`: what the library takes as given, from the outside world;
* `writeFile`: writes a file;
* **`main`**: carries out a command.
-/

namespace MusicCatalog.Program

/-- Reads what came of the request. -/
def exchange (input : IO.FS.Stream) : IO Exchange := do
  let status ← input.getLine
  if status.isEmpty then return .unreachable
  let body ← readAll ByteArray.empty
  return .answered (status.trimAscii.toString.toNat?.getD 0) body.toList true
where
  /-- Reads to the end. -/
  readAll (read : ByteArray) : IO ByteArray := do
    let mut read := read
    repeat
      let more ← input.read 65536
      if more.isEmpty then break
      read := read ++ more
    return read

/-- Draws words, one for each octet of the body and one more. Even the shortest piece fills two
octets, and a piece needs at most two words, so none is drawn twice. -/
def words : Exchange → IO Random.Words
  | .answered _ body _ => do
    let bytes ← IO.getRandomBytes (4 * (body.length + 1)).toUSize
    return .cycle (ofBytes bytes.toList)
  | .unreachable | .dropped => return .cycle []
where
  /-- The words that some bytes spell, four each. -/
  ofBytes : List UInt8 → List UInt32
    | a :: b :: c :: d :: rest =>
      (((a.toUInt32 * 256 + b.toUInt32) * 256 + c.toUInt32) * 256 + d.toUInt32) :: ofBytes rest
    | _ => []

/-- The local time, to the microsecond. -/
def now : IO String := do
  return (← Std.Time.PlainDateTime.now).format "uuuu-MM-dd'T'HH:mm:ss.SSSSSS"

/-- Why a file could not be written. -/
def fileCause : IO.Error → FileCause
  | .noFileOrDirectory _ 2 _ => .noSuchEntry
  | .inappropriateType _ 20 _ => .notDirectory
  | .inappropriateType _ 21 _ => .isDirectory
  | .invalidArgument _ 36 _ => .nameTooLong
  | e => .other (toString e)

/-- Writes a file. -/
def writeFile (path text : String) : ExceptT Failure IO Unit := ExceptT.mk do
  try
    IO.FS.writeFile path text
    return .ok ()
  catch e =>
    return .error (.file (fileCause e))

/-- Makes a catalog and writes it. -/
def make (curator : Curator) : IO (Except Failure Report) := do
  let exchange ← exchange (← IO.getStdin)
  (curator.make writeFile exchange (← words exchange) (← now)).run

end MusicCatalog.Program

/-- Carries out a command. -/
def main (arguments : List String) : IO UInt32 := do
  let (stdout, exitCode) ← MusicCatalog.CommandLine.carryOut arguments MusicCatalog.Program.make
  IO.print stdout
  return exitCode.toUInt32
