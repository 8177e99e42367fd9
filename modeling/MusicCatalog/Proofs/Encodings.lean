import MusicCatalog.Proofs.Listing

/-!
# Encodings of one text

A listing may be served in UTF-8 or in either order of UTF-16. The pieces, or the fault and its place,
are those of its text and do not depend on how that is encoded.

* `utf16`, `fromUtf16_char`, **`fromUtf16_utf16`**: the octets of a text in UTF-16, and their decoding;
* `Encodes`, **`decode_encodes`**: the octets that may be served for a text;
* **`Client.fetch_encoded`**: what a fetch makes of them.
-/

namespace MusicCatalog

namespace Text

/-! ## UTF-16 -/

/-- The units of a character: its code, or a pair of surrogates for a code beyond 16 bits. -/
def units (c : Char) : List Nat :=
  if c.toNat < 0x10000 then [c.toNat]
  else [0xD800 + (c.toNat - 0x10000) / 0x400, 0xDC00 + (c.toNat - 0x10000) % 0x400]

/-- The octets of a unit, the high one first if `bigEndian`. -/
def unitOctets (bigEndian : Bool) (u : Nat) : List UInt8 :=
  if bigEndian then [UInt8.ofNat (u / 256), UInt8.ofNat (u % 256)]
  else [UInt8.ofNat (u % 256), UInt8.ofNat (u / 256)]

/-- The octets of a character. -/
def utf16Char (bigEndian : Bool) (c : Char) : List UInt8 := (units c).flatMap (unitOctets bigEndian)

/-- The octets of a text. -/
def utf16 (bigEndian : Bool) (cs : List Char) : List UInt8 := cs.flatMap (utf16Char bigEndian)

section Units

variable {u : Nat} (hu : u < 0x10000) (bigEndian : Bool) (bs : List UInt8)

include hu

/-- A unit begins a character, or follows a high surrogate. -/
theorem fromUtf16_unit (high : Option Nat) :
    fromUtf16 bigEndian high (unitOctets bigEndian u ++ bs) =
      let read := high.elim (beginUtf16 u) fun high => continueUtf16 high u
      read.1 ++ fromUtf16 bigEndian read.2 bs := by
  have hhigh : (UInt8.ofNat (u / 256)).toNat = u / 256 :=
    UInt8.toNat_ofNat_of_lt' (by rw [UInt8.size]; omega)
  have hlow : (UInt8.ofNat (u % 256)).toNat = u % 256 :=
    UInt8.toNat_ofNat_of_lt' (by rw [UInt8.size]; omega)
  have hunit : u / 256 * 256 + u % 256 = u := Nat.div_add_mod' u 256
  cases bigEndian <;> cases high <;> simp [unitOctets, fromUtf16, hhigh, hlow, hunit]

/-- A unit that is no surrogate is a character. -/
theorem fromUtf16_plain (hhigh : ¬ isHighSurrogate u) (hlow : ¬ isLowSurrogate u) :
    fromUtf16 bigEndian none (unitOctets bigEndian u ++ bs) =
      Char.ofNat u :: fromUtf16 bigEndian none bs := by
  rw [fromUtf16_unit hu]
  simp [beginUtf16, hhigh, hlow]

/-- A high surrogate waits for the low one. -/
theorem fromUtf16_high (hhigh : isHighSurrogate u) :
    fromUtf16 bigEndian none (unitOctets bigEndian u ++ bs) = fromUtf16 bigEndian (some u) bs := by
  rw [fromUtf16_unit hu]
  simp [beginUtf16, hhigh]

/-- The low surrogate completes a pair. -/
theorem fromUtf16_low (high : Nat) (hlow : isLowSurrogate u) :
    fromUtf16 bigEndian (some high) (unitOctets bigEndian u ++ bs) =
      pairedChar high u :: fromUtf16 bigEndian none bs := by
  rw [fromUtf16_unit hu]
  simp [continueUtf16, hlow]

end Units

/-- A character is decoded from its octets, whatever follows. -/
theorem fromUtf16_char (bigEndian : Bool) (c : Char) (bs : List UInt8) :
    fromUtf16 bigEndian none (utf16Char bigEndian c ++ bs) = c :: fromUtf16 bigEndian none bs := by
  have hvalid : c.toNat < 0xD800 ∨ 0xDFFF < c.toNat ∧ c.toNat < 0x110000 := c.valid
  have hback : Char.ofNat c.toNat = c := Char.ofNat_toNat c
  rw [utf16Char, units]
  generalize c.toNat = n at hvalid hback
  subst hback
  by_cases h : n < 0x10000
  · rw [if_pos h, List.flatMap_singleton]
    exact fromUtf16_plain h _ _ (by simp [isHighSurrogate]; omega) (by simp [isLowSurrogate]; omega)
  · -- ten bits in each of the surrogates, beyond the first plane
    have hvalue : 0x10000 + (0xD800 + (n - 0x10000) / 0x400 - 0xD800) * 0x400 +
        (0xDC00 + (n - 0x10000) % 0x400 - 0xDC00) = n := by omega
    rw [if_neg h, List.flatMap_cons, List.flatMap_singleton, List.append_assoc,
      fromUtf16_high (by omega) _ _ (by simp [isHighSurrogate]; omega),
      fromUtf16_low (by omega) _ _ _ (by simp [isLowSurrogate]; omega), pairedChar, hvalue]

theorem fromUtf16_utf16 (bigEndian : Bool) (cs : List Char) :
    fromUtf16 bigEndian none (utf16 bigEndian cs) = cs := by
  induction cs with
  | nil => rfl
  | cons c cs ih => rw [utf16, List.flatMap_cons, fromUtf16_char, ← utf16, ih]

/-! ## Any encoding -/

/-- The octets stand for the text: in UTF-8 or in either order of UTF-16 behind its byte order mark, or
in UTF-8 without one, if the text does not begin with what would be taken for a mark. -/
inductive Encodes (cs : List Char) : List UInt8 → Prop
  | markedUtf8 : Encodes cs (0xEF :: 0xBB :: 0xBF :: utf8 cs)
  | bigEndian : Encodes cs (0xFE :: 0xFF :: utf16 true cs)
  | littleEndian : Encodes cs (0xFF :: 0xFE :: utf16 false cs)
  | unmarked (h : cs.head? ≠ some '\uFEFF') : Encodes cs (utf8 cs)

/-- **A text is decoded** from any of its encodings, less the mark and nothing else. -/
theorem decode_encodes {cs : List Char} {octets : List UInt8} (h : Encodes cs octets) :
    decode octets = cs := by
  cases h with
  | markedUtf8 => exact fromUtf8_utf8 cs
  | bigEndian => exact fromUtf16_utf16 true cs
  | littleEndian => exact fromUtf16_utf16 false cs
  | unmarked h => exact decode_utf8 h

end Text

/-! ## Listings -/

namespace Client

open Text

variable {client : Client} {web : Web} {url : Url} {status : Nat}

/-- **A listing in any encoding** gives the pieces of its text, or is refused for the same reason and at
the same place as its text. -/
theorem fetch_encoded {text : String} {octets : List UInt8} (haddress : client.address web = .ok url)
    (hexchange : web.exchange client.request = .answered status octets true) (hlow : 200 ≤ status)
    (hhigh : status < 300) (h : Encodes text.toList octets) :
    client.fetch web = (Piece.parseList text).mapError Failure.parse := by
  rw [fetch_answered haddress hexchange hlow hhigh, pieces, decode_encodes h, String.ofList_toList]
  cases Piece.parseList text <;> rfl

/-- A listing with a character beyond the first plane. -/
def clef : String := "[\x7b\"filename\":\"𝄞.mp3\"\x7d]"

/-- What comes of a request for that listing. -/
def clefExchange : Exchange := .answered 200 (0xFF :: 0xFE :: utf16 false clef.toList) true

/-- What comes of a request for an empty listing behind two marks. -/
def markedExchange : Exchange := .answered 200 (0xFE :: 0xFF :: utf16 true ['\uFEFF', '[', ']']) true

/-- The second of two marks belongs to the text, and no value begins with it. -/
theorem fetch_encoded_clef :
    plain.address clefExchange = .ok ⟨"http", "http://pages/pieces.json"⟩ ∧
      (∃ p, plain.fetch clefExchange = .ok [p] ∧ p.filename? = some "𝄞.mp3") ∧
      ∃ refusal, plain.fetch markedExchange = .error (.parse refusal) ∧
        refusal.message = "expected value at line 1 column 1" := by
  have hlittle : Encodes clef.toList (0xFF :: 0xFE :: utf16 false clef.toList) := .littleEndian
  have hclef := fetch_encoded (address_plain clefExchange) rfl (by decide) (by decide) hlittle
  have hbig : Encodes "\uFEFF[]".toList (0xFE :: 0xFF :: utf16 true ['\uFEFF', '[', ']']) := .bigEndian
  have hmark := fetch_encoded (address_plain markedExchange) rfl (by decide) (by decide) hbig
  have hnames : (Piece.parseList clef).toOption.map (List.map Piece.filename?) =
      some [some "𝄞.mp3"] := by decide +kernel
  have hmessage : ((Piece.parseList "\uFEFF[]").map List.length).mapError Json.Refusal.message =
      .error "expected value at line 1 column 1" := by decide +kernel
  refine ⟨address_plain clefExchange, ?_, ?_⟩
  · cases hparse : Piece.parseList clef with
    | error refusal =>
      rw [hparse] at hnames
      cases hnames
    | ok ps =>
      rw [hparse] at hnames hclef
      obtain ⟨p, rfl, hp⟩ := List.map_eq_singleton_iff.1 (Option.some.inj hnames)
      exact ⟨p, hclef, hp⟩
  · cases hparse : Piece.parseList "\uFEFF[]" with
    | error refusal =>
      rw [hparse] at hmessage hmark
      exact ⟨refusal, hmark, Except.error.inj hmessage⟩
    | ok ps =>
      rw [hparse] at hmessage
      cases hmessage

end Client

end MusicCatalog
