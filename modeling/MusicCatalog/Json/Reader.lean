import MusicCatalog.Json.Fault

/-!
# Readers

A reader takes the text that is left, and gives what it has read together with the text left after
it, or a fault. It never looks at what has been passed.

* `Reader`: the type;
* `isBlank`, `skipBlanks`: the four characters that may stand between tokens;
* **`word`**: a fixed word, letter by letter.
-/

namespace MusicCatalog.Json

/-- Reads a value from the front of the text that is left. -/
abbrev Reader (α : Type) := List Char → Except Fault (α × List Char)

/-- Space, tab, line feed and carriage return. -/
def isBlank (c : Char) : Bool := c == ' ' || c == '\t' || c == '\n' || c == '\r'

/-- What is left from the first character that is not blank. -/
def skipBlanks (s : List Char) : List Char := s.dropWhile isBlank

@[simp] theorem skipBlanks_nil : skipBlanks [] = [] := rfl

/-- A character that is not blank is not passed. -/
theorem skipBlanks_cons {c : Char} {r : List Char} (h : isBlank c = false) :
    skipBlanks (c :: r) = c :: r := by
  simp [skipBlanks, h]

/-- Blanks in front make no difference. -/
theorem skipBlanks_append {b s : List Char} (h : ∀ c ∈ b, isBlank c) :
    skipBlanks (b ++ s) = skipBlanks s := by
  induction b with
  | nil => rfl
  | cons c b ih =>
    have hc := h c (by simp)
    simp only [skipBlanks, List.cons_append, List.dropWhile_cons, hc, if_true]
    exact ih fun d hd => h d (by simp [hd])

/-- Reads the letters of a word and gives what follows it. -/
def word : List Char → List Char → Except Fault (List Char)
  | [], r => .ok r
  | _ :: _, [] => .error (.here .endInValue [])
  | w :: ws, c :: r => if c = w then word ws r else .error (.ahead .expectedWord (c :: r))

/-- A word is read from nothing but its own letters. -/
theorem eq_append_of_word {w s r : List Char} (h : word w s = .ok r) : s = w ++ r := by
  induction w generalizing s with
  | nil => simpa [word] using h
  | cons c w ih =>
    cases s with
    | nil => simp [word] at h
    | cons d s =>
      simp only [word] at h
      split at h
      · next hd => simp [hd, ih h]
      · simp at h

end MusicCatalog.Json
