import MusicCatalog.Mood
import MusicCatalog.Site
import MusicCatalog.Text.Decode
import MusicCatalog.Web

/-!
# Fetching the listing

One request is made for the whole listing, if its address is one for requests.

* `Client`: a site whose client name may stand in a request;
* `Client.address`, `Client.request`: the listing's address, if requests can be made to it, and the
  request;
* **`Client.ask`**, `Site.ask`: sends the request and reads the answer;
* `Client.fetch`, `Client.fetchByMood`: the pieces of the listing, or the first thing that went wrong;
* `Client.requestsMade`, `Client.requests`: what is sent, and what of it arrives.
-/

namespace MusicCatalog

open Json

/-! ## Clients -/

/-- A text may stand in the header of a request: no controls but the tab. -/
def isHeaderText (s : String) : Bool :=
  s.toList.all fun c => c = '\t' || (0x20 ≤ c.toNat && c.toNat ≠ 0x7F)

/-- A site that requests can be made to under its client name. -/
structure Client where
  site : Site
  legalAgent : isHeaderText site.userAgent

/-- The client of a site. -/
def Client.ofSite (site : Site) : Except Failure Client :=
  if h : isHeaderText site.userAgent then .ok ⟨site, h⟩ else .error (.transport .unbuildable)

namespace Client

variable (client : Client)

/-! ## Requests -/

/-- The address of the listing, if it can be read and requests can be made to it. -/
def address (web : Web) : Except Failure Url :=
  match web.readUrl client.site.listingUrl with
  | none => .error (.transport .unbuildable)
  | some url =>
    if url.scheme ∈ requestSchemes then .ok url else .error (.transport (.unsupported url.text))

/-- The request for the listing. -/
def request : Request := ⟨"GET", client.site.listingUrl, "application/json", client.site.userAgent⟩

/-! ## Responses -/

/-- The body of a response that is a complete success. -/
def body (url : Url) : Exchange → Except Failure (List UInt8)
  | .unreachable | .dropped => .error (.transport (.unanswered url.text))
  | .answered status body complete =>
    if status < 200 ∨ 300 ≤ status then .error (.response status client.site.listingUrl)
    else if complete then .ok body
    else .error (.transport .brokenBody)

/-- The pieces of a listing in some encoding. -/
def pieces (body : List UInt8) : Except Failure (List Piece) :=
  match Piece.parseList (String.ofList (Text.decode body)) with
  | .ok pieces => .ok pieces
  | .error refusal => .error (.parse refusal)

/-! ## Fetches -/

/-- Asks for the listing, and reads its pieces. -/
def ask (web : Web) : Asking (List Piece) := do
  let url ← MonadExcept.ofExcept (client.address web)
  let exchange ← web.send client.request
  let octets ← MonadExcept.ofExcept (client.body url exchange)
  MonadExcept.ofExcept (pieces octets)

/-- The pieces of the listing, in the order of the site. -/
def fetch (web : Web) : Except Failure (List Piece) := ((client.ask web).run []).1

/-- The requests that a fetch makes, whatever comes of them. -/
def requestsMade (web : Web) : List Request := ((client.ask web).run []).2

/-- The requests of a fetch that arrive. -/
def requests (web : Web) : List Request :=
  (client.requestsMade web).filter fun request => (web.exchange request).arrives

/-- The pieces of the listing that have one of the moods. -/
def fetchByMood (moods : List String) (web : Web) : Except Failure (List Piece) := do
  .ok (byMood moods (← client.fetch web))

end Client

/-- Asks a site for its listing, by a new client. -/
def Site.ask (site : Site) (web : Web) : Asking (List Piece) := do
  let client ← MonadExcept.ofExcept (Client.ofSite site)
  client.ask web

end MusicCatalog
