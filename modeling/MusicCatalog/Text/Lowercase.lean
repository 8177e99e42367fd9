import MusicCatalog.Text.CaseData

/-!
# Lowercase

The full mapping of Unicode for whole texts. One character has a form of two (`İ`), and the form of
the Greek capital sigma depends on its surroundings: it is `ς` at the end of a word and `σ`
elsewhere.

* `lowerChar`: the form of a character by itself;
* `endsWord`: the surroundings of a final sigma;
* **`lowercase`**: the lowercase form of a text.
-/

namespace MusicCatalog.Text

/-- The lowercase form of a character by itself. -/
def lowerChar (c : Char) : List Char :=
  if c.toNat < 0x80 then [c.toLower]
  else if c = '\u0130' then ['i', '\u0307']
  else
    match lowerRuns.find? (·.has c) with
    | some r => [r.lower c]
    | none => [c]

/-- The nearest character that is not ignorable has case. -/
def meetsCased (cs : List Char) : Bool :=
  match cs.dropWhile caseIgnorable.has with
  | c :: _ => cased.has c
  | [] => false

/-- A place is at the end of a word: a letter is met backwards and none forwards. -/
def endsWord (before after : List Char) : Bool := meetsCased before && !meetsCased after

/-- The lowercase form of a text that follows the characters `before`, nearest first. -/
def lowerAfter (before : List Char) : List Char → List Char
  | [] => []
  | c :: r =>
    (if c = 'Σ' then [if endsWord before r then 'ς' else 'σ'] else lowerChar c)
      ++ lowerAfter (c :: before) r

/-- The lowercase form of a list of characters. -/
def lowerList (cs : List Char) : List Char := lowerAfter [] cs

/-- The lowercase form of a text. -/
def lowercase (s : String) : String := String.ofList (lowerList s.toList)

@[simp] theorem toList_lowercase (s : String) : (lowercase s).toList = lowerList s.toList := by
  simp [lowercase]

end MusicCatalog.Text
