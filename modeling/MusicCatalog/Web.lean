import MusicCatalog.Failure
import MusicCatalog.Url

/-!
# The web

All that a computation learns from outside is how addresses are read, and what comes of the requests
that it sends. The requests are kept in the order in which they are sent.

* `Request`, `Exchange`: what is sent, and what comes of it;
* `Web`, `Web.plain`: how addresses are read and requests are answered;
* **`Asking`**, `Web.send`: computations that may send requests, and may fail.
-/

namespace MusicCatalog

/-- A request, to an address as it was given. -/
structure Request where
  method : String
  url : String
  accept : String
  userAgent : String
deriving DecidableEq

/-- What comes of a request in the end, after all that is done for it without being asked: a connection
is set up, encrypted or not, and an answer that points elsewhere is followed, by requests that are not
counted here. Headers of the answer are used for this and for nothing else, not even for a character set
that they name. -/
inductive Exchange where
  /-- No connection is made. -/
  | unreachable
  /-- The request arrives, and the connection is closed without an answer. -/
  | dropped
  /-- The site answers; the body may break off before its announced end. -/
  | answered (status : Nat) (body : List UInt8) (complete : Bool)

/-- The request has arrived. -/
def Exchange.arrives : Exchange → Bool
  | unreachable => false
  | dropped | answered _ _ _ => true

/-- What is outside: a reader of addresses, and what comes of each request. -/
structure Web where
  readUrl : String → Option Url
  hasScheme_of_readUrl : ∀ {text url}, readUrl text = some url → HasScheme text url.scheme
  exchange : Request → Exchange

/-- Addresses are read by the plain reader, and every request comes to the same. -/
def Web.plain (exchange : Exchange) : Web := ⟨Url.plain?, Url.hasScheme_of_plain?, fun _ => exchange⟩

/-- Where there is one request, the exchange that comes of it is all there is to say. -/
instance : Coe Exchange Web := ⟨Web.plain⟩

/-- A computation that may send requests. What it has sent before it fails stays sent. -/
abbrev Asking (α : Type) := ExceptT Failure (StateM (List Request)) α

/-- Sends a request. -/
def Web.send (web : Web) (request : Request) : Asking Exchange := do
  modify fun sent => sent ++ [request]
  return web.exchange request

end MusicCatalog
