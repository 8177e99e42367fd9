import MusicCatalog.Proofs.Keys
import MusicCatalog.Proofs.Reread

/-!
# Catalogs that are listed again

The entries of a catalog are objects, so their list can be served as a listing. Its pieces have the
keys of an entry already, and the entries that are made of them are the same but for their tiers.

* `Entry.listed`, `Entry.Alike`: the piece that the object of an entry is, and entries that differ in
  their tier only;
* `OfferRule.entry_listed`, `OfferRule.entries_listed`: the entries of such pieces;
* `Snapshot.denotes_render_iff`: the document in a file, and the list in it;
* `Curator.fetch_listed`, `Curator.kept_listed`: such a listing is accepted, and all of it is kept;
* **`Curator.run_relisted`**: a run on the list that another run has written.
-/

namespace MusicCatalog

open Files Json Text

/-! ## Entries as pieces -/

namespace Entry

variable (e : Entry)

/-- The piece that the object of the entry is. -/
def listed : Piece := .ofMembers e.members

/-- The entries have the same piece and the same links. -/
structure Alike (f : Entry) : Prop where
  piece : f.piece = e.piece
  downloadUrl : f.downloadUrl = e.downloadUrl
  pageUrl : f.pageUrl = e.pageUrl

variable {e}

theorem get?_listed {key : String} (hkey : key ∉ ownKeys) :
    e.listed.get? key = e.piece.get? key := by
  have hown : [("access", Value.str e.tier.name), ("download_url", .str e.downloadUrl),
      ("metadata_url", .str e.pageUrl)].reverse.lookup key = none := by
    simp only [ownKeys, List.mem_cons, List.not_mem_nil, or_false, not_or] at hkey
    simp [hkey]
  rw [listed, Piece.get?, Piece.ofMembers, lookup_canonicalMembers, members, List.reverse_append,
    List.lookup_append, hown, Option.none_or, ← lookup_canonicalMembers,
    canonicalMembers_eq_self e.piece.canonical, Piece.get?]

theorem without_listed (he : e.Proper) : e.listed.without ownKeys = e.piece := by
  ext key
  rw [Piece.get?_without]
  by_cases hkey : key ∈ ownKeys
  · have hnone : ¬ (e.piece.get? key).isSome := by
      intro hsome
      obtain ⟨m, hm, rfl⟩ := List.mem_map.1 (Piece.isSome_get?_iff.1 hsome)
      exact he m hm hkey
    rw [if_pos hkey, Option.not_isSome_iff_eq_none.1 hnone]
  · rw [if_neg hkey, get?_listed hkey]

end Entry

namespace OfferRule

variable {rule : OfferRule} {links : Links} {pieces : List Piece} {w : Random.Words}
  {es : List Entry}

theorem get?_listed_entry (p : Piece) (isFree : Bool) {key : String} (hkey : key ∉ Entry.ownKeys) :
    (entry links p isFree).listed.get? key = p.get? key := by
  rw [Entry.get?_listed hkey, entry, Entry.get?_attach, if_neg hkey]

theorem filename?_listed (p : Piece) (isFree : Bool) :
    (entry links p isFree).listed.filename? = p.filename? := by
  rw [Piece.filename?, get?_listed_entry p isFree (by decide)]
  rfl

theorem feel_listed (p : Piece) (isFree : Bool) :
    (entry links p isFree).listed.feel = p.feel := by
  rw [Piece.feel, get?_listed_entry p isFree (by decide)]
  rfl

/-- The entry of a listed entry is the entry of the piece it was made of. -/
theorem entry_listed (p : Piece) (isFree isFree' : Bool) :
    entry links (entry links p isFree).listed isFree' = entry links p isFree' := by
  have hpiece : (entry links p isFree).listed.without Entry.ownKeys = p.without Entry.ownKeys :=
    Entry.without_listed (Entry.proper_attach p _ _ _)
  rw [entry, Entry.attach, hpiece, filename?_listed]
  rfl

theorem exists_entry_of_mem (h : rule.entries links pieces w = .ok es) {e : Entry} (he : e ∈ es) :
    ∃ p ∈ pieces, ∃ isFree, e = entry links p isFree := by
  obtain ⟨-, rfl⟩ := rule.entries_eq_ok_iff.1 h
  rw [← List.map_uncurry_zip_eq_zipWith, List.mem_map] at he
  obtain ⟨⟨p, isFree⟩, hmem, rfl⟩ := he
  exact ⟨p, (List.of_mem_zip hmem).1, isFree, rfl⟩

/-- **Listed entries** have entries again, which are the same but for their tiers. -/
theorem entries_listed (h : rule.entries links pieces w = .ok es) (rule' : OfferRule)
    (w' : Random.Words) :
    ∃ es', rule'.entries links (es.map Entry.listed) w' = .ok es' ∧ List.Forall₂ Entry.Alike es es' := by
  have hnamed : ∀ q ∈ es.map Entry.listed, q.filename?.isSome := by
    refine List.forall_mem_map.2 fun e he => ?_
    obtain ⟨p, hp, isFree, rfl⟩ := exists_entry_of_mem h he
    rw [filename?_listed]
    exact (rule.entries_eq_ok_iff.1 h).1 p hp
  refine ⟨_, rule'.entries_eq_ok_iff.2 ⟨hnamed, rfl⟩, ?_⟩
  have hentries : List.Forall₂ _ (es.map Entry.listed) (List.zipWith (entry links) _ _) :=
    forall₂_entry (rule'.length_freeFlags (es.map Entry.listed) w')
  rw [List.forall₂_map_left_iff] at hentries
  have hboth := (List.forall₂_and_left es _).2 ⟨fun e he => exists_entry_of_mem h he, hentries⟩
  refine hboth.imp ?_
  rintro e e' ⟨⟨p, -, isFree, rfl⟩, isFree', rfl⟩
  rw [entry_listed]
  exact ⟨rfl, rfl, rfl⟩

end OfferRule

/-! ## Documents -/

namespace Snapshot

variable {s : Snapshot}

/-- The file of a snapshot stands for one object, with the objects of the entries in a list. -/
theorem denotes_render_iff (hs : s.Faithful) :
    ∃ ms : Members, (∀ v, Denotes s.render.toList v ↔ v = .obj ms) ∧
      ms.lookup "pieces" = some (.arr (s.pieces.map Entry.toValue)) := by
  obtain ⟨total, free, -, -, hspells⟩ := spells_write Layout.blank_indented hs
  have hdenotes : Denotes s.render.toList (.obj (s.members total free)) := by
    rw [render, String.toList_ofList]
    exact hspells.denotes
  exact ⟨s.members total free, fun v => ⟨fun h => h.unique hdenotes, fun h => h ▸ hdenotes⟩, rfl⟩

end Snapshot

/-! ## Runs -/

/-- A written list may be served in UTF-8: it has no byte order mark. -/
theorem denotes_list {items : List Value} (hitems : (Value.arr items).FloatFree) {l : Layout}
    (hl : l.Blank) (level : Nat) :
    Denotes (decode (utf8 ((Value.arr items).write l level))) (.arr items) := by
  have hdecode : decode (utf8 ((Value.arr items).write l level)) = (Value.arr items).write l level := by
    obtain ⟨r, hr⟩ := l.exists_enclose '[' ']' level (writeItems l (level + 1) items)
    rw [Value.write, Layout.list, hr]
    exact decode_utf8 (by simp)
  rw [hdecode]
  exact (spells_write hl hitems level).denotes

theorem isListing_entries {text : List Char} {es : List Entry}
    (h : Denotes text (.arr (es.map Entry.toValue)))
    (hdepth : ∀ e ∈ es, ∀ m ∈ e.piece.fields, m.2.depth ≤ 125) :
    IsListing text (es.map Entry.members) := by
  have hobjects : (es.map Entry.members).map Value.obj = es.map Entry.toValue := by
    rw [List.map_map]
    rfl
  refine ⟨by rwa [hobjects], depth_listing_le_iff.2 (List.forall_mem_map.2 fun e he => ?_)⟩
  have hvalue := e.depth_toValue
  have hfields := membersDepth_le_iff.2 (hdepth e he)
  rw [Entry.toValue, Value.depth] at hvalue
  omega

/-- Listed entries are accepted, if they are not nested too deeply. -/
theorem Client.fetch_listed {client : Client} {web : Web} {url : Url} {status : Nat}
    {octets : List UInt8} {es : List Entry} (haddress : client.address web = .ok url)
    (hexchange : web.exchange client.request = .answered status octets true) (hlow : 200 ≤ status)
    (hhigh : status < 300) (h : Denotes (decode octets) (.arr (es.map Entry.toValue)))
    (hdepth : ∀ e ∈ es, ∀ m ∈ e.piece.fields, m.2.depth ≤ 125) :
    client.fetch web = .ok (es.map Entry.listed) := by
  rw [fetch_answered haddress hexchange hlow hhigh, pieces_eq_ok, Piece.parseList_eq_ok_iff,
    String.toList_ofList]
  refine ⟨es.map Entry.members, isListing_entries h hdepth, ?_⟩
  rw [List.map_map]
  rfl

namespace Curator

variable {c : Curator} {web : Web} {w : Random.Words} {now : String} {files files' : Tree}
  {report : Report} {fetched : List Piece} {es : List Entry}

/-- The same settings, but for the way in which free pieces are chosen. -/
def choosing (c : Curator) (selection : Selection) : Curator :=
  { c with rule := ⟨c.rule.freeSlots, selection⟩ }

/-- All listed entries are kept. -/
theorem kept_listed {links : Links} (h : c.rule.entries links (c.kept fetched) w = .ok es) :
    c.kept (es.map Entry.listed) = es.map Entry.listed := by
  have hmood : ∀ q ∈ es.map Entry.listed, q.Mentions c.moods := by
    refine List.forall_mem_map.2 fun e he => ?_
    obtain ⟨p, hp, isFree, rfl⟩ := OfferRule.exists_entry_of_mem h he
    have hmentions : p.Mentions c.moods := by
      simpa using (List.mem_filter.1 (List.mem_of_mem_take hp)).2
    rwa [Piece.Mentions, OfferRule.feel_listed]
  have hlength : (es.map Entry.listed).length ≤ c.limit.toNat := by
    rw [List.length_map, ← (c.rule.entries_eq_ok h).1.length_eq]
    exact List.length_take_le ..
  rw [kept, List.filter_eq_self.2 (by simpa using hmood)]
  exact List.take_of_length_le hlength

/-- A run by position makes a catalog of the same pieces. -/
theorem snapshot_choosing (hfetch : c.client.fetch web = .ok fetched)
    (hnamed : ∀ p ∈ c.kept fetched, p.filename?.isSome) (w : Random.Words) (now : String) :
    ∃ s, (c.choosing .index).snapshot web w now = .ok s ∧
      s.freeCount = min c.rule.freeSlots.toNat (c.kept fetched).length := by
  have hentries : ∃ es, (c.choosing .index).rule.entries (.ofSite c.client.site)
      ((c.choosing .index).kept fetched) w = .ok es :=
    ⟨_, OfferRule.entries_eq_ok_iff _ |>.2 ⟨hnamed, rfl⟩⟩
  obtain ⟨es, hes⟩ := hentries
  exact ⟨.stamped now es, snapshot_eq_ok.2 ⟨fetched, es, hfetch, hes, rfl⟩,
    countP_free (c := c.choosing .index) hes rfl⟩

/-- A run on the listed entries makes entries of all of them. -/
theorem snapshot_listed {served : Web} (hserved : c.client.fetch served = .ok (es.map Entry.listed))
    (hes : c.rule.entries (.ofSite c.client.site) (c.kept fetched) w = .ok es)
    (selection : Selection) (w' : Random.Words) (now' : String) :
    ∃ s', (c.choosing selection).snapshot served w' now' = .ok s' ∧
      List.Forall₂ Entry.Alike es s'.pieces ∧
      (selection = .index → s'.freeCount = min c.rule.freeSlots.toNat (c.kept fetched).length) := by
  have hkept : c.kept (es.map Entry.listed) = es.map Entry.listed := kept_listed hes
  obtain ⟨es', hes', halike⟩ := OfferRule.entries_listed hes (c.choosing selection).rule w'
  have hlength : (es.map Entry.listed).length = (c.kept fetched).length := by
    rw [List.length_map, (c.rule.entries_eq_ok hes).1.length_eq]
  have hsnapshot : (c.choosing selection).snapshot served w' now' = .ok (.stamped now' es') :=
    snapshot_eq_ok.2 ⟨_, es', hserved, hkept.symm ▸ hes', rfl⟩
  refine ⟨_, hsnapshot, halike, fun hindex => ?_⟩
  rw [← hlength]
  exact countP_free (c := c.choosing selection) hes' hindex

/-- **A catalog can be listed again.** If the pieces of a run have no floating numbers, the list in
its file may be served as a listing, and of this the same entries are made, in the same order and but
for their tiers. By position, just so many are free as in a first run by position. -/
theorem run_relisted (h : c.run web w now files = .ok (report, files'))
    (hfetch : c.client.fetch web = .ok fetched)
    (hfree : ∀ p ∈ c.kept fetched, p.OthersFloatFree) :
    ∃ s document items, c.snapshot web w now = .ok s ∧
      files'.read? c.outputPath = some s.render ∧
      (∀ v, Denotes s.render.toList v ↔ v = .obj document) ∧ document.lookup "pieces" = some (.arr items) ∧
      (∀ l : Layout, l.Blank → ∀ level,
        Denotes (decode (utf8 ((Value.arr items).write l level))) (.arr items)) ∧
      ∀ (web' : Web) (status : Nat) octets, web'.readUrl = web.readUrl →
        web'.exchange c.client.request = .answered status octets true → 200 ≤ status → status < 300 →
        Denotes (decode octets) (.arr items) → ∀ selection w' now', ∃ s',
          (c.choosing selection).snapshot web' w' now' = .ok s' ∧
          List.Forall₂ Entry.Alike s.pieces s'.pieces ∧
          (selection = .index → ∀ w₁ now₁, ∃ first,
            (c.choosing .index).snapshot web w₁ now₁ = .ok first ∧
              s'.freeCount = first.freeCount) := by
  obtain ⟨s, hs, hwrite, -⟩ := run_eq_ok.1 h
  obtain ⟨fetched', es, hfetch', hes, rfl⟩ := snapshot_eq_ok.1 hs
  obtain rfl : fetched = fetched' := Except.ok.inj (hfetch.symm.trans hfetch')
  have hcatalog := Snapshot.catalogs_stamped (c.rule.entries_eq_ok hes).1 now
  have hfaithful := hcatalog.faithful (length_kept_lt fetched) hfree
  obtain ⟨document, hdocument, hpieces⟩ := Snapshot.denotes_render_iff hfaithful
  refine ⟨_, document, _, hs, Tree.read?_of_write hwrite, hdocument, hpieces,
    fun l hl level => denotes_list (Snapshot.floatFree_entries hfaithful) hl level, ?_⟩
  intro web' status octets hread hexchange hlow hhigh hoctets selection w' now'
  obtain ⟨url, _, haddress, -, -⟩ := Client.fetch_eq_ok.1 hfetch
  rw [Client.address, ← hread] at haddress
  have hdepth : ∀ e ∈ es, ∀ m ∈ e.piece.fields, m.2.depth ≤ 125 :=
    (hcatalog.depthLe_iff 125).2 fun p hp m hm _ =>
      membersDepth_le_iff.1 (Client.depth_of_fetch hfetch p (mem_of_mem_kept hp)) m hm
  have hserved := Client.fetch_listed haddress hexchange hlow hhigh hoctets hdepth
  obtain ⟨s', hs', halike, hcount⟩ := snapshot_listed hserved hes selection w' now'
  refine ⟨s', hs', halike, fun hindex w₁ now₁ => ?_⟩
  obtain ⟨first, hfirst, hcount'⟩ :=
    snapshot_choosing hfetch (OfferRule.entries_eq_ok_iff _ |>.1 hes).1 w₁ now₁
  exact ⟨first, hfirst, (hcount hindex).trans hcount'.symm⟩

/-- Of a listing with the deepest value that is accepted the file is no snapshot that is read back, but
the list in it is accepted. -/
theorem run_relisted_nested :
    ∃ report files', ∃ s : Snapshot, ∃ document items,
      keepAll.run (nestedExchange 125) (.cycle []) "now" .empty = .ok (report, files') ∧
      files'.read? keepAll.outputPath = some s.render ∧
      Denotes s.render.toList (.obj document) ∧ document.lookup "pieces" = some (.arr items) ∧
      ∃ s', (keepAll.choosing .equality).snapshot
          (Exchange.answered 200 (utf8 ((Value.arr items).write .indented 1)) true) (.cycle [7])
            "later" = .ok s' ∧ List.Forall₂ Entry.Alike s.pieces s'.pieces := by
  obtain ⟨report, files', h⟩ := run_nested (n := 125) le_rfl
  have hfree : ∀ p ∈ keepAll.kept [Snapshot.nestedPiece 125], p.OthersFloatFree := fun p hp =>
    Piece.othersFloatFree (floatFree_nested 125 p (mem_of_mem_kept hp))
  obtain ⟨s, document, items, -, hread, hdocument, hpieces, hserved, hagain⟩ :=
    run_relisted h (fetch_nested le_rfl) hfree
  have hoctets := hserved .indented Layout.blank_indented 1
  obtain ⟨s', hs', halike, -⟩ :=
    hagain (Exchange.answered 200 (utf8 ((Value.arr items).write .indented 1)) true) 200 _ rfl rfl
      (by decide) (by decide) hoctets .equality (.cycle [7]) "later"
  exact ⟨report, files', s, document, items, h, hread, (hdocument _).2 rfl, hpieces, s', hs', halike⟩

end Curator

end MusicCatalog
