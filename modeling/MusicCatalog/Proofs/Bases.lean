import MusicCatalog.Proofs.Curator
import MusicCatalog.Proofs.Fetch
import MusicCatalog.Proofs.Site

/-!
# Slashes of the bases make no difference

A site is made by changes, one after another, of which the last of each kind counts. Bases are stored
without the slashes at their end, so that sites whose bases differ in nothing else are the same, and
every address of a run has one slash behind its base.

* `Site.Change`, `Site.changed`: a site after some changes;
* `Site.last?`, `Site.changed_eq`: what the last change of each kind has given;
* `IsKept`: what is kept of a base;
* `Site.Serves`: the addresses of all runs for a site;
* **`Site.changed_slashed`**: changes that give the same bases, but for slashes at the end.
-/

namespace MusicCatalog

/-! ## Changes -/

namespace Site

/-- A change of a site. -/
inductive Change where
  | baseUrl (url : String)
  | downloadBase (url : String)
  | userAgent (name : String)

/-- The site with the change. -/
def Change.apply (site : Site) : Change → Site
  | baseUrl url => site.withBaseUrl url
  | downloadBase url => site.withDownloadBase url
  | userAgent name => site.withUserAgent name

/-- The base of listing and pages that a change gives. -/
def Change.baseUrl? : Change → Option String
  | baseUrl url => some url
  | _ => none

/-- The base of downloads that a change gives. -/
def Change.downloadBase? : Change → Option String
  | downloadBase url => some url
  | _ => none

/-- The name of the client that a change gives. -/
def Change.userAgent? : Change → Option String
  | userAgent name => some name
  | _ => none

/-- The site after some changes. -/
def changed (site : Site) (changes : List Change) : Site := changes.foldl Change.apply site

/-- What has been given last, of all that changes give. -/
def last? (given? : Change → Option String) (changes : List Change) : Option String :=
  (changes.filterMap given?).getLast?

theorem last?_concat (given? : Change → Option String) (changes : List Change) (change : Change) :
    last? given? (changes ++ [change]) = (given? change).or (last? given? changes) := by
  rw [last?, List.filterMap_append, List.getLast?_append, last?]
  cases h : given? change <;> simp [h]

/-- **The last change of each kind counts**, whatever the others were. -/
theorem changed_eq (site : Site) (changes : List Change) :
    site.changed changes =
      ⟨((last? Change.baseUrl? changes).map trimSlashes).getD site.baseUrl,
        ((last? Change.downloadBase? changes).map trimSlashes).getD site.downloadBase,
        (last? Change.userAgent? changes).getD site.userAgent⟩ := by
  induction changes using List.reverseRecOn with
  | nil => rfl
  | append_singleton changes change ih =>
    simp only [changed] at ih
    simp only [changed, List.foldl_append, ih, last?_concat]
    cases change <;> rfl

end Site

/-! ## Addresses -/

/-- What is kept of a base: the longest part at its front that does not end in a slash. Behind it there
are only slashes, and nothing is left to drop. -/
structure IsKept (url base : String) : Prop extends IsTrimmed url base where
  longest : ∀ s : String, s.toList <+: url.toList → (∀ r, s ≠ r ++ "/") → s.toList <+: base.toList
  again : trimSlashes base = base

theorem isKept_trimSlashes (url : String) : IsKept url (trimSlashes url) where
  toIsTrimmed := isTrimmed_trimSlashes url
  longest _ hs hends := (isTrimmed_trimSlashes url).longest hs hends
  again := trimSlashes_trimSlashes url

/-- What is asked of the site is asked once and at one address, if this is one for requests, and every
entry has links of its piece's file, all with one slash behind their bases. -/
structure Site.Serves (site : Site) (base downloads : String) : Prop where
  listing : site.listingUrl = base ++ "/" ++ "pieces.json"
  requests : ∀ client : Client, client.site = site → ∀ web : Web,
    (web.Admits (base ++ "/" ++ "pieces.json") → client.requestsMade web =
      [⟨"GET", base ++ "/" ++ "pieces.json", "application/json", site.userAgent⟩]) ∧
    (¬ web.Admits (base ++ "/" ++ "pieces.json") → client.requestsMade web = [])
  entries : ∀ c : Curator, c.client.site = site → ∀ web w now s,
    c.snapshot web w now = .ok s → ∃ fetched, c.client.fetch web = .ok fetched ∧
      List.Forall₂ (fun p (e : Entry) => ∃ filename stem,
        p.get? "filename" = some (.str filename) ∧ IsStem filename stem ∧
        e.downloadUrl = downloads ++ "/" ++ filename ∧ e.pageUrl = base ++ "/" ++ stem)
        (c.kept fetched) s.pieces

theorem Site.serves (site : Site) : site.Serves site.baseUrl site.downloadBase := by
  have hlisting : site.listingUrl = site.baseUrl ++ "/" ++ "pieces.json" := by
    rw [listingUrl, String.append_assoc]
    rfl
  refine ⟨hlisting, ?_, ?_⟩
  · rintro client rfl web
    rw [← hlisting]
    refine ⟨fun hadmits => ?_, fun hadmits => ?_⟩
    · obtain ⟨url, -, haddress⟩ := Client.exists_address hadmits
      exact Client.requestsMade_of_address haddress
    · obtain ⟨cause, haddress⟩ := Client.exists_address_error hadmits
      exact Client.requestsMade_of_address_error haddress
  · rintro c rfl web w now s hs
    obtain ⟨fetched, es, hfetch, hes, rfl⟩ := Curator.snapshot_eq_ok.1 hs
    exact ⟨fetched, hfetch, (c.rule.entries_eq_ok hes).1.imp fun _ _ h => h.links⟩

/-- A client is known by its site. -/
theorem Client.eq_of_site {client client' : Client} (h : client.site = client'.site) :
    client = client' := by
  obtain ⟨site, hlegal⟩ := client
  obtain ⟨site', hlegal'⟩ := client'
  obtain rfl : site = site' := h
  rfl

/-- Curators with the same settings for the same site make the same catalogs, wherever they write
them. -/
theorem Curator.snapshot_congr {c c' : Curator} (hsite : c.client.site = c'.client.site)
    (hmoods : c.moods = c'.moods) (hlimit : c.limit = c'.limit) (hrule : c.rule = c'.rule)
    (web : Web) (w : Random.Words) (now : String) :
    c.snapshot web w now = c'.snapshot web w now := by
  simp only [snapshot, candidates, Client.eq_of_site hsite, hmoods, hlimit, hrule]

/-- **Slashes at the end of the bases make no difference.** If the last bases that some changes give
are those of others, but for slashes at the end, then the sites are the same. Of each base its longest
part without a slash at the end is kept, and all addresses of all runs are made of this: for curators
with the same settings the same requests, and the same catalogs. -/
theorem Site.changed_slashed {site site' : Site} {changes changes' : List Change} {u d : String}
    {j k : Nat} (hbase : last? Change.baseUrl? changes = some (slashed u j))
    (hbase' : last? Change.baseUrl? changes' = some u)
    (hdownload : last? Change.downloadBase? changes = some (slashed d k))
    (hdownload' : last? Change.downloadBase? changes' = some d)
    (hagent : (last? Change.userAgent? changes).getD site.userAgent =
      (last? Change.userAgent? changes').getD site'.userAgent) :
    site.changed changes = site'.changed changes' ∧
      (∃ base downloads, IsKept u base ∧ IsKept d downloads ∧
        (site.changed changes).baseUrl = base ∧ (site.changed changes).downloadBase = downloads ∧
        (site.changed changes).Serves base downloads) ∧
      ∀ c c' : Curator, c.client.site = site.changed changes →
        c'.client.site = site'.changed changes' → c.moods = c'.moods → c.limit = c'.limit →
        c.rule = c'.rule → (∀ web, c.client.requestsMade web = c'.client.requestsMade web ∧
          c.client.requests web = c'.client.requests web) ∧
          ∀ web w now, c.snapshot web w now = c'.snapshot web w now := by
  have hchanged : site.changed changes =
      ⟨trimSlashes u, trimSlashes d, (last? Change.userAgent? changes).getD site.userAgent⟩ := by
    rw [changed_eq, hbase, hdownload, Option.map_some, Option.map_some, trimSlashes_slashed,
      trimSlashes_slashed]
    rfl
  have hsame : site.changed changes = site'.changed changes' := by
    rw [hchanged, changed_eq site', hbase', hdownload', hagent]
    rfl
  refine ⟨hsame, ⟨_, _, isKept_trimSlashes u, isKept_trimSlashes d, ?_, ?_, ?_⟩, ?_⟩
  · rw [hchanged]
  · rw [hchanged]
  · rw [hchanged]
    exact serves _
  · intro c c' hc hc' hmoods hlimit hrule
    have hsite : c.client.site = c'.client.site := hc.trans (hsame.trans hc'.symm)
    refine ⟨fun web => ?_, Curator.snapshot_congr hsite hmoods hlimit hrule⟩
    rw [Client.eq_of_site hsite]
    exact ⟨rfl, rfl⟩

namespace Site

/-- Changes that give their bases with slashes at the end, one after others and one that has nothing
else. -/
def slashyChanges : List Change :=
  [.baseUrl "http://elsewhere/", .userAgent "curator", .downloadBase "///", .downloadBase "//",
    .baseUrl "http://pages/a///"]

/-- Changes to the same site, in another order. -/
def plainChanges : List Change :=
  [.userAgent "nobody", .downloadBase "", .baseUrl "http://pages/a", .userAgent "curator"]

theorem changed_slashed_plain :
    standard.changed slashyChanges = (standard.withBaseUrl "").changed plainChanges ∧
      (standard.changed slashyChanges).Serves "http://pages/a" "" := by
  obtain ⟨hsame, ⟨base, downloads, -, -, hbase, hdownloads, hserves⟩, -⟩ :=
    @changed_slashed standard (standard.withBaseUrl "") slashyChanges plainChanges "http://pages/a" ""
      3 2 rfl rfl rfl rfl rfl
  obtain rfl : base = "http://pages/a" := by
    rw [← hbase]
    decide
  obtain rfl : downloads = "" := by
    rw [← hdownloads]
    decide
  exact ⟨hsame, hserves⟩

end Site

end MusicCatalog
