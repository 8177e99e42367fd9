import MusicCatalog.Text.Split

/-!
# Addresses

Before a request is made to an address, the address is read. The reader in full is not part of the
library, which relies on no more than that a text stands for an address only if it begins with a
scheme, and then for one with this scheme.

* `Url`: an address that has been read;
* `HasScheme`: texts that begin with a scheme;
* **`Url.plain?`**: a reader of plain addresses.
-/

namespace MusicCatalog

/-- An address that has been read: its scheme in small letters, and the usual spelling of the whole. -/
structure Url where
  scheme : String
  text : String
deriving DecidableEq

/-! ## Schemes -/

/-- A letter, and then letters, digits and `+`, `-`, `.`. -/
def isScheme : List Char → Bool
  | [] => false
  | c :: r => c.isAlpha && r.all fun d => d.isAlphanum || d = '+' || d = '-' || d = '.'

/-- What counts of an address: no blanks and controls in front, and no tabs and ends of lines. -/
def significant (cs : List Char) : List Char :=
  (cs.dropWhile (· ≤ ' ')).filter fun c => c ≠ '\t' ∧ c ≠ '\n' ∧ c ≠ '\r'

/-- The address is absolute: it begins with a scheme, in small letters or in capitals, and a colon. -/
def HasScheme (text scheme : String) : Prop :=
  ∃ s rest, isScheme s ∧ significant text.toList = s ++ ':' :: rest ∧
    scheme = String.ofList (s.map Char.toLower)

/-- The scheme that the characters begin with. -/
def schemeOf? (cs : List Char) : Option String :=
  let s := cs.takeWhile (· ≠ ':')
  if s.length < cs.length ∧ isScheme s then some (String.ofList (s.map Char.toLower)) else none

/-! ## Plain addresses -/

/-- Four numbers below 256, with dots between them. -/
def isQuad (host : List Char) : Bool :=
  let parts := Text.split '.' host
  parts.length = 4 && parts.all fun p => (List.range 256).any fun n => (toString n).toList = p

/-- A name of letters, digits and `-`, `.`, `_`. If its last part begins with a digit, all of it are
four numbers. -/
def isHost (host : List Char) : Bool :=
  let numeric := ((Text.split '.' host).getLast?.bind List.head?).any Char.isDigit
  !host.isEmpty && host.all (fun c => c.isAlphanum || c = '-' || c = '.' || c = '_') &&
    (!numeric || isQuad host)

/-- Nothing, or a colon and a number of 16 bits. -/
def isPort : List Char → Bool
  | [] => true
  | c :: digits => c = ':' && digits.all Char.isDigit && Nat.ofDigitChars 10 digits 0 < 0x10000

/-- Two slashes, a host, maybe a port, and then whatever may follow these. -/
def isPlace : List Char → Bool
  | '/' :: '/' :: rest =>
    let authority := rest.takeWhile fun c => c ≠ '/' ∧ c ≠ '\\' ∧ c ≠ '?' ∧ c ≠ '#'
    isHost (authority.takeWhile (· ≠ ':')) && isPort (authority.dropWhile (· ≠ ':'))
  | _ => false

/-- The schemes of addresses that requests can be made to. -/
def requestSchemes : List String := ["http", "https"]

/-- Reads an address of visible ASCII characters, which is taken to be in its usual spelling. If it is
one for requests, a host and maybe a port stand behind its scheme. There are addresses that this reader
refuses for being less plain: those with the name of a user, with a host in brackets or in other
letters, and those with anything to be escaped. -/
def Url.plain? (text : String) : Option Url :=
  let cs := text.toList
  match schemeOf? cs with
  | none => none
  | some scheme =>
    if cs.all (fun c => ' ' < c && c < '\x7F') ∧
        (scheme ∈ requestSchemes → isPlace (cs.drop (scheme.length + 1))) then
      some ⟨scheme, text⟩
    else none

/-! ## The scheme that is read -/

theorem significant_of_visible {cs : List Char} (h : ∀ c ∈ cs, ' ' < c) : significant cs = cs := by
  have hdrop : cs.dropWhile (· ≤ ' ') = cs := by
    cases cs with
    | nil => rfl
    | cons c r => exact List.dropWhile_cons_of_neg (by simpa using h c List.mem_cons_self)
  rw [significant, hdrop, List.filter_eq_self]
  intro c hc
  have hlt := h c hc
  refine decide_eq_true ⟨?_, ?_, ?_⟩ <;> rintro rfl <;> exact absurd hlt (by decide)

theorem exists_of_schemeOf? {cs : List Char} {scheme : String} (h : schemeOf? cs = some scheme) :
    ∃ s rest, isScheme s ∧ cs = s ++ ':' :: rest ∧ scheme = String.ofList (s.map Char.toLower) := by
  unfold schemeOf? at h
  dsimp only at h
  split at h
  · next hscheme =>
    cases h
    have hcs := List.takeWhile_append_dropWhile (p := (· ≠ ':')) (l := cs)
    have hfirst := List.head?_dropWhile_not (· ≠ ':') cs
    cases hdrop : cs.dropWhile (· ≠ ':') with
    | nil =>
      -- nothing stands behind the scheme, which therefore is all there is
      rw [hdrop, List.append_nil] at hcs
      rw [hcs] at hscheme
      exact absurd hscheme.1 (Nat.lt_irrefl _)
    | cons d rest =>
      rw [hdrop] at hcs hfirst
      obtain rfl : d = ':' := by simpa using hfirst
      exact ⟨_, rest, hscheme.2, hcs.symm, rfl⟩
  · cases h

/-- The plain reader goes by the scheme that a text begins with. -/
theorem Url.hasScheme_of_plain? {text : String} {url : Url} (h : plain? text = some url) :
    HasScheme text url.scheme := by
  unfold plain? at h
  dsimp only at h
  cases hscheme : schemeOf? text.toList with
  | none =>
    rw [hscheme] at h
    cases h
  | some scheme =>
    rw [hscheme] at h
    dsimp only at h
    split at h
    · next hplain =>
      cases h
      obtain ⟨s, rest, hs, htext, hlower⟩ := exists_of_schemeOf? hscheme
      have hvisible : ∀ c ∈ text.toList, ' ' < c := fun c hc => by
        have hc := List.all_eq_true.1 hplain.1 c hc
        simp only [Bool.and_eq_true, decide_eq_true_eq] at hc
        exact hc.1
      exact ⟨s, rest, hs, (significant_of_visible hvisible).trans htext, hlower⟩
    · cases h

end MusicCatalog
