import MusicCatalog.Text.HiddenData

/-!
# Quoted text

A text between double quotes, for messages. Quotes and backslashes are escaped, five controls have
short names, and every other hidden character is written by its code point.

* `escapeChar`: one character;
* **`quoted`**: the whole text.
-/

namespace MusicCatalog.Text

/-- A hexadecimal numeral, in small letters. -/
def hexDigits (n : Nat) : List Char := Nat.toDigits 16 n

/-- A character inside quotes. -/
def escapeChar (c : Char) : List Char :=
  if c = '"' then ['\\', '"']
  else if c = '\\' then ['\\', '\\']
  else if c = '\n' then ['\\', 'n']
  else if c = '\r' then ['\\', 'r']
  else if c = '\t' then ['\\', 't']
  else if c = '\x00' then ['\\', '0']
  else if hidden.has c then ['\\', 'u', '{'] ++ hexDigits c.toNat ++ ['}']
  else [c]

/-- A text in quotes. -/
def quoted (s : String) : String :=
  String.ofList ('"' :: s.toList.flatMap escapeChar ++ ['"'])

end MusicCatalog.Text
