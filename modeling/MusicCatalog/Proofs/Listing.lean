import MusicCatalog.Listing
import MusicCatalog.Proofs.Ascii
import MusicCatalog.Proofs.Piece

/-!
# Which listings are accepted

* `Client.ask_run`, `Client.fetch_eq`: what is asked, and what becomes of the answer;
* `Client.fetch_eq_ok`: what a successful fetch means;
* `Piece.Holds`: a piece has the members of an object;
* **`Client.fetch_listing`**: a body is accepted exactly if its text is a list of objects, and gives one
  piece for each of them;
* `Client.fetch_written`: listings as the site would write them.
-/

namespace MusicCatalog

open Json

/-- The piece has the values of an object under its keys and no others; of a repeated key the last
value counts, at every level. -/
def Piece.Holds (members : Members) (p : Piece) : Prop :=
  ∀ key, p.get? key = (members.reverse.lookup key).map Value.canonical

theorem Piece.holds_ofMembers (members : Members) : Piece.Holds members (.ofMembers members) :=
  fun key => lookup_canonicalMembers key members

namespace Client

variable {client : Client} {web : Web} {url : Url} {status : Nat} {octets : List UInt8}

/-! ## Questions and answers -/

/-- **Asking** adds one request to those before it if the address is one for requests, and none
otherwise. -/
theorem ask_run (client : Client) (web : Web) (sent : List Request) :
    (client.ask web).run sent =
      match client.address web with
      | .ok url =>
        (client.body url (web.exchange client.request) >>= pieces, sent ++ [client.request])
      | .error failure => (.error failure, sent) := by
  unfold ask
  cases haddress : client.address web with
  | error failure => exact bind_run_error (ofExcept_run _ sent) _
  | ok url =>
    have hsend : (web.send client.request).run sent =
        (.ok (web.exchange client.request), sent ++ [client.request]) := rfl
    rw [bind_run_ok (ofExcept_run _ sent), bind_run_ok hsend, ofExcept_bind_run]

theorem fetch_eq (client : Client) (web : Web) :
    client.fetch web = (do
      pieces (← client.body (← client.address web) (web.exchange client.request))) := by
  rw [fetch, ask_run]
  cases client.address web <;> rfl

theorem pieces_eq_ok {ps : List Piece} :
    pieces octets = .ok ps ↔ Piece.parseList (String.ofList (Text.decode octets)) = .ok ps := by
  unfold pieces
  cases Piece.parseList (String.ofList (Text.decode octets)) <;> simp

theorem fetch_eq_ok {ps : List Piece} :
    client.fetch web = .ok ps ↔
      ∃ url octets, client.address web = .ok url ∧
        client.body url (web.exchange client.request) = .ok octets ∧
        Piece.parseList (String.ofList (Text.decode octets)) = .ok ps := by
  simp only [fetch_eq, bind_eq_ok, pieces_eq_ok]
  constructor
  · rintro ⟨url, hurl, octets, hbody, h⟩
    exact ⟨url, octets, hurl, hbody, h⟩
  · rintro ⟨url, octets, hurl, hbody, h⟩
    exact ⟨url, hurl, octets, hbody, h⟩

/-- A fetch that gets a complete body makes pieces of it. -/
theorem fetch_answered (haddress : client.address web = .ok url)
    (hexchange : web.exchange client.request = .answered status octets true) (hlow : 200 ≤ status)
    (hhigh : status < 300) : client.fetch web = pieces octets := by
  have hbody : client.body url (.answered status octets true) = .ok octets := by
    rw [body, if_neg (by omega), if_pos rfl]
  rw [fetch_eq, haddress, hexchange]
  change (client.body url (.answered status octets true) >>= pieces) = _
  rw [hbody]
  rfl

/-! ## Listings -/

/-- **A listing is accepted** exactly if its text is a list of objects. The pieces are those objects,
one by one and in their order; all other texts are refused by the reader. -/
theorem fetch_listing (haddress : client.address web = .ok url)
    (hexchange : web.exchange client.request = .answered status octets true) (hlow : 200 ≤ status)
    (hhigh : status < 300) :
    ((∃ ps, client.fetch web = .ok ps) ↔ ∃ objects, IsListing (Text.decode octets) objects) ∧
    (∀ objects, IsListing (Text.decode octets) objects →
      ∃ ps, client.fetch web = .ok ps ∧ List.Forall₂ Piece.Holds objects ps) ∧
    ((¬ ∃ objects, IsListing (Text.decode octets) objects) →
      ∃ refusal, client.fetch web = .error (.parse refusal)) := by
  have hiff : ∀ ps, pieces octets = .ok ps ↔
      ∃ objects, IsListing (Text.decode octets) objects ∧ ps = objects.map .ofMembers := by
    intro ps
    rw [pieces_eq_ok, Piece.parseList_eq_ok_iff, String.toList_ofList]
  rw [fetch_answered haddress hexchange hlow hhigh]
  refine ⟨?_, fun objects hobjects => ?_, fun hnone => ?_⟩
  · constructor
    · rintro ⟨ps, hps⟩
      obtain ⟨objects, hobjects, -⟩ := (hiff ps).1 hps
      exact ⟨objects, hobjects⟩
    · rintro ⟨objects, hobjects⟩
      exact ⟨_, (hiff _).2 ⟨objects, hobjects, rfl⟩⟩
  · refine ⟨_, (hiff _).2 ⟨objects, hobjects, rfl⟩, List.forall₂_map_right_iff.2 ?_⟩
    exact List.forall₂_same.2 fun ms _ => Piece.holds_ofMembers ms
  · unfold pieces
    cases h : Piece.parseList (String.ofList (Text.decode octets)) with
    | error refusal => exact ⟨refusal, rfl⟩
    | ok ps =>
      obtain ⟨objects, hobjects, -⟩ := (hiff ps).1 (pieces_eq_ok.2 h)
      exact absurd ⟨objects, hobjects⟩ hnone

/-- A listing that is written in ASCII and served is accepted. -/
theorem fetch_written {ps : List Piece} (haddress : client.address web = .ok url)
    (hexchange : web.exchange client.request =
      .answered 200 (Text.octetsOf (Piece.listing .compact ps)) true)
    (hascii : Text.Ascii (Piece.listing .compact ps))
    (hfree : ∀ p ∈ ps, MembersFloatFree p.fields) (hdepth : ∀ p ∈ ps, p.toValue.depth ≤ 126) :
    client.fetch web = .ok ps := by
  rw [fetch_answered haddress hexchange (by decide) (by decide), pieces_eq_ok,
    Text.decode_ascii hascii]
  exact Piece.parseList_listing Layout.blank_compact hfree hdepth

/-- A listing of one object, in which a key is repeated. -/
def repeatedKey : Members := [("a", .null), ("b", .bool true), ("a", .arr [])]

/-- Octets of that listing. -/
def repeatedBody : List UInt8 := Text.octetsOf ((Value.arr [.obj repeatedKey]).write .compact 0)

/-- The client of a site with short addresses. -/
def plain : Client := ⟨⟨"http://pages", "http://files", "curator"⟩, by decide⟩

theorem address_plain (exchange : Exchange) :
    plain.address exchange = .ok ⟨"http", "http://pages/pieces.json"⟩ := by rfl

theorem fetch_listing_repeated :
    plain.address (Exchange.answered 200 repeatedBody true) =
        .ok ⟨"http", "http://pages/pieces.json"⟩ ∧
      ∃ p, plain.fetch (Exchange.answered 200 repeatedBody true) = .ok [p] ∧
        p.get? "a" = some (.arr []) := by
  have haddress := address_plain (.answered 200 repeatedBody true)
  have hdecode : Text.decode repeatedBody = (Value.arr [.obj repeatedKey]).write .compact 0 :=
    Text.decode_ascii (Text.ascii_of_all (by decide))
  have hspells : Spells ((Value.arr [.obj repeatedKey]).write .compact 0)
      (.arr ([repeatedKey].map .obj)) :=
    spells_write (v := .arr [.obj repeatedKey]) Layout.blank_compact (by decide) 0
  have hlisting : IsListing (Text.decode repeatedBody) [repeatedKey] := by
    rw [hdecode]
    exact ⟨denotes_iff.2 ⟨[], _, [], blanks_nil, hspells, blanks_nil, by simp⟩, by decide⟩
  have hfetch := fetch_listing haddress rfl (by decide) (by decide)
  obtain ⟨ps, hps, hall⟩ := hfetch.2.1 _ hlisting
  cases hall with
  | @cons _ p _ _ hp hnil =>
    cases hnil
    exact ⟨haddress, p, hps, hp "a"⟩

end Client

end MusicCatalog
