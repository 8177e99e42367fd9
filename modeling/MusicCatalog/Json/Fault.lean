import MusicCatalog.Decimal.Shortest
import MusicCatalog.Text.Quoted

/-!
# What can be wrong with a JSON document

A fault is a reason together with a place, and the place is counted from the end of the document in
octets of UTF-8. The reader only ever holds the text that is left, so it can say where it is without
knowing what it has passed; line and column are found later from the whole document.

* `Found`: what stood where something else was expected;
* **`Reason`**, `Reason.message`: the reasons and their wording;
* `Fault`, `Fault.here`, `Fault.ahead`: a fault at the point reached, or at the next octet;
* `Place`, `Fault.place`, `Refusal`: line and column in the document, for the reader of the fault.
-/

namespace MusicCatalog.Json

open MusicCatalog.Decimal

/-- The octets of a text in UTF-8. -/
def octets : List Char → Nat
  | [] => 0
  | c :: r => c.utf8Size + octets r

/-- What was found in place of the expected kind of value. -/
inductive Found where
  | null
  | bool (b : Bool)
  | int (n : Int)
  | float (x : Binary64)
  | str (s : String)
  | list
  | object

/-- The wording of what was found. -/
def Found.describe : Found → String
  | .null => "null"
  | .bool b => "boolean `" ++ (if b then "true" else "false") ++ "`"
  | .int n => "integer `" ++ toString n ++ "`"
  | .float x => "floating point `" ++ String.ofList x.spell ++ "`"
  | .str s => "string " ++ Text.quoted s
  | .list => "sequence"
  | .object => "map"

/-- Why a document is refused. -/
inductive Reason where
  | endInValue
  | endInList
  | endInObject
  | endInString
  | expectedValue
  | expectedWord
  | expectedColon
  | expectedListEnd
  | expectedObjectEnd
  | keyNotString
  | trailingComma
  | trailingCharacters
  | invalidNumber
  | numberOutOfRange
  | invalidEscape
  | loneSurrogate
  | unfinishedSurrogate
  | controlCharacter
  | tooDeep
  /-- A value of one kind stands where another is expected. -/
  | wrongKind (found : Found) (expected : String)
  /-- An integer is outside the range of a count. -/
  | wrongInteger (n : Int) (expected : String)
  /-- A name is none of the two that are known. -/
  | unknownName (name first second : String)
  | repeatedField (name : String)
  | missingField (name : String)
  | wrongLength (length : Nat) (expected : String)

/-- The wording of a reason. -/
def Reason.message : Reason → String
  | .endInValue => "EOF while parsing a value"
  | .endInList => "EOF while parsing a list"
  | .endInObject => "EOF while parsing an object"
  | .endInString => "EOF while parsing a string"
  | .expectedValue => "expected value"
  | .expectedWord => "expected ident"
  | .expectedColon => "expected `:`"
  | .expectedListEnd => "expected `,` or `]`"
  | .expectedObjectEnd => "expected `,` or `\x7d`"
  | .keyNotString => "key must be a string"
  | .trailingComma => "trailing comma"
  | .trailingCharacters => "trailing characters"
  | .invalidNumber => "invalid number"
  | .numberOutOfRange => "number out of range"
  | .invalidEscape => "invalid escape"
  | .loneSurrogate => "lone leading surrogate in hex escape"
  | .unfinishedSurrogate => "unexpected end of hex escape"
  | .controlCharacter => "control character (\\u0000-\\u001F) found while parsing a string"
  | .tooDeep => "recursion limit exceeded"
  | .wrongKind found expected => "invalid type: " ++ found.describe ++ ", expected " ++ expected
  | .wrongInteger n expected =>
    "invalid value: integer `" ++ toString n ++ "`, expected " ++ expected
  | .unknownName name first second =>
    "unknown variant `" ++ name ++ "`, expected `" ++ first ++ "` or `" ++ second ++ "`"
  | .repeatedField name => "duplicate field `" ++ name ++ "`"
  | .missingField name => "missing field `" ++ name ++ "`"
  | .wrongLength length expected =>
    "invalid length " ++ toString length ++ ", expected " ++ expected

/-! ## Places -/

/-- A reason, and how many octets of the document follow the place where it arose. -/
structure Fault where
  reason : Reason
  left : Nat

namespace Fault

/-- A fault where `rest` is what is left. -/
def here (reason : Reason) (rest : List Char) : Fault := ⟨reason, octets rest⟩

/-- A fault at the first octet of `rest`, which counts as passed; at its end if `rest` is empty. -/
def ahead (reason : Reason) (rest : List Char) : Fault := ⟨reason, octets rest - 1⟩

end Fault

/-- A line, counted from one, and the octets passed on it. -/
structure Place where
  line : Nat
  column : Nat
deriving DecidableEq, Repr

/-- The place `count` octets after `start`. -/
def Place.advance (start : Place) (count : Nat) : List Char → Place
  | [] => start
  | c :: r =>
    if count < c.utf8Size then ⟨start.line, start.column + count⟩
    else
      let next : Place :=
        if c = '\n' then ⟨start.line + 1, 0⟩ else ⟨start.line, start.column + c.utf8Size⟩
      next.advance (count - c.utf8Size) r

/-- The place of a fault in its document. -/
def Fault.place (fault : Fault) (document : List Char) : Place :=
  (Place.mk 1 0).advance (octets document - fault.left) document

/-- A document is refused: for what reason, and where. -/
structure Refusal where
  reason : Reason
  place : Place

/-- The refusal of the document in which a fault arose. -/
def Fault.refuse (fault : Fault) (document : List Char) : Refusal :=
  ⟨fault.reason, fault.place document⟩

/-- The reason and the place, in words. -/
def Refusal.message (r : Refusal) : String :=
  r.reason.message ++ " at line " ++ toString r.place.line ++ " column " ++ toString r.place.column

end MusicCatalog.Json
