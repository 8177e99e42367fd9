import MusicCatalog.Proofs.EntryParts
import MusicCatalog.Proofs.Json.Members
import MusicCatalog.Proofs.Json.Unambiguous
import MusicCatalog.Proofs.RoundTrip

/-!
# Every key of an entry is written once

The three own keys of an entry are kept out of its piece, by the one who makes an entry as well as
by the reader, so they can be written behind the piece's own.

* `Piece.get?_without`, `Entry.get?_attach`, `Entry.get?_parse`: what is left of a piece;
* `Entry.Made`, `Entry.Made.proper`: entries that were made or read;
* `Phrase.HasKeys`: the keys of an object as it is written;
* **`Entry.keys_once`**: no key occurs twice, neither in an entry nor in the text of a snapshot.
-/

namespace MusicCatalog

open Json Grammar

/-! ## Pieces -/

theorem Piece.isSome_get?_iff {p : Piece} {key : String} :
    (p.get? key).isSome ↔ key ∈ p.fields.map Prod.fst := by
  rw [get?, Option.isSome_iff_ne_none, ne_eq, List.lookup_eq_none_iff]
  simp only [not_forall, List.mem_map, bne_iff_ne, ne_eq, not_not, exists_prop]
  exact exists_congr fun m => and_congr_right fun _ => eq_comm

theorem Piece.get?_without (p : Piece) (names : List String) (key : String) :
    (p.without names).get? key = if key ∈ names then none else p.get? key :=
  lookup_filter_others names p.fields key

theorem Piece.get?_ofMembers (ms : Members) (key : String) :
    (ofMembers ms).get? key = (ms.reverse.lookup key).map Value.canonical :=
  lookup_canonicalMembers key ms

/-- A piece is known by its values. -/
@[ext]
theorem Piece.ext_get? {p q : Piece} (h : ∀ key, p.get? key = q.get? key) : p = q := by
  obtain ⟨fields, hp⟩ := p
  obtain ⟨fields', hq⟩ := q
  obtain rfl : fields = fields' := hp.ext hq h
  rfl

/-- It makes no difference whether members are left out of an object or of its piece. -/
theorem Piece.ofMembers_without (ms : Members) (names : List String) :
    ofMembers (ms.filter fun m => !names.contains m.1) = (ofMembers ms).without names := by
  ext1 key
  rw [get?_without, get?_ofMembers, get?_ofMembers, ← List.filter_reverse, lookup_filter_others]
  split_ifs <;> rfl

/-! ## Entries -/

namespace Entry

/-- An entry is made of the piece of its object. -/
theorem Holds.eq_attach {ms : Members} {e : Entry} (h : e.Holds ms) :
    e = attach (.ofMembers ms) e.tier e.downloadUrl e.pageUrl := by
  rw [attach, ← Piece.ofMembers_without, ← h.piece]

theorem get?_attach (p : Piece) (t : Tier) (downloadUrl pageUrl key : String) :
    (attach p t downloadUrl pageUrl).piece.get? key =
      if key ∈ ownKeys then none else p.get? key :=
  p.get?_without ownKeys key

theorem get?_parse {text : String} {e : Entry} (h : parse text = .ok e) :
    ∃ ms, Denotes text.toList (.obj ms) ∧ ∀ key, e.piece.get? key =
      if key ∈ ownKeys then none else (ms.reverse.lookup key).map Value.canonical := by
  obtain ⟨ms, hparse, he⟩ := parse_eq_ok_iff.1 h
  refine ⟨ms, (Value.parse_eq_ok_iff.1 hparse).1, fun key => ?_⟩
  rw [he.eq_attach, get?_attach, Piece.get?_ofMembers]

/-- The entry was made of a piece, or some reader of entries has read it. -/
inductive Made : Entry → Prop
  | attach (p : Piece) (t : Tier) (downloadUrl pageUrl : String) :
    Made (attach p t downloadUrl pageUrl)
  | read {budget room : Nat} {s rest : List Char} {e : Entry}
    (h : read budget room s = .ok (e, rest)) : Made e

theorem Made.proper {e : Entry} (h : e.Made) : e.Proper := by
  cases h with
  | attach p t downloadUrl pageUrl => exact proper_attach p t downloadUrl pageUrl
  | read h =>
    obtain ⟨-, -, -, ⟨ms, -, he, -⟩, -⟩ := takes_read _ _ _ _ _ h
    intro m hm
    rw [he.piece] at hm
    obtain ⟨m', hm', hkey⟩ := List.mem_map.1 (mem_keys_canonicalMembers.1 (List.mem_map_of_mem hm))
    rw [← hkey]
    simpa using (List.mem_filter.1 hm').2

theorem made_of_parse {text : String} {e : Entry} (h : parse text = .ok e) : e.Made :=
  Gives.document (fun _ _ hread => .read hread) h

/-- The keys of the written object. -/
def keys (e : Entry) : List String := e.piece.fields.map Prod.fst ++ ownKeys

theorem nodup_keys {e : Entry} (h : e.Proper) : e.keys.Nodup := by
  have hpiece : (e.piece.fields.map Prod.fst).Nodup :=
    (pairwise_keys e.piece.canonical).imp fun hlt => String.ne_of_lt hlt
  refine List.nodup_append.2 ⟨hpiece, by decide, fun k hk k' hk' heq => ?_⟩
  obtain ⟨m, hm, rfl⟩ := List.mem_map.1 hk
  exact h m hm (heq ▸ hk')

end Entry

/-! ## Written text -/

/-- The phrase is an object with some keys, in their order. -/
def Json.Phrase.HasKeys (x : Phrase) (keys : List String) : Prop :=
  ∃ ms, x = .object ms ∧ List.Forall₂ (fun key m => text? m.1 = some key.toList) keys ms

section Layout

variable {l : Layout} (hl : l.Blank)

include hl

/-- The members of a written entry, which mean what they are but for floating numbers. -/
theorem Entry.exists_isValue_toValue (e : Entry) (level : Nat) :
    ∃ xs, IsValue (e.toValue.write l level) (.object xs) ∧
      List.Forall₂ (fun m x => text? x.1 = some m.1.toList ∧
        (m.2.FloatFree → x.2.value? = some m.2)) e.members xs := by
  have hvalues : ∀ m ∈ e.members, ∃ x, IsValue (m.2.write l (level + 1)) x ∧
      (m.2.FloatFree → x.value? = some m.2) := fun m _ => exists_isValue_write hl m.2 (level + 1)
  rw [Entry.toValue, Value.write, writeMembers_eq_map]
  exact hl.isValue_object Prod.fst hvalues level

theorem Entry.isValue_toValue (e : Entry) (level : Nat) :
    ∃ x, IsValue (e.toValue.write l level) x ∧ x.HasKeys e.keys := by
  obtain ⟨ms, hms, hmembers⟩ := Entry.exists_isValue_toValue hl e level
  have hkeys : e.keys = e.members.map Prod.fst := by
    rw [Entry.members, List.map_append]
    rfl
  refine ⟨.object ms, hms, ms, rfl, ?_⟩
  rw [hkeys, List.forall₂_map_left_iff]
  exact hmembers.imp fun _ _ h => h.1

/-- The four members of a written snapshot, of which the last has an object for each entry. -/
theorem Snapshot.isValue_write (s : Snapshot) :
    ∃ ms gs items, IsValue (s.write l) (.object ms) ∧
      (Phrase.object ms).HasKeys ["generated_at", "total_pieces", "free_count", "pieces"] ∧
      (gs, .list items) ∈ ms ∧ text? gs = some "pieces".toList ∧
      List.Forall₂ (fun (e : Entry) x => x.HasKeys e.keys) s.pieces items := by
  have hentries : ∀ e ∈ s.pieces, ∃ x, IsValue (e.toValue.write l 2) x ∧ x.HasKeys e.keys :=
    fun e _ => Entry.isValue_toValue hl e 2
  obtain ⟨items, hitems, hkeys⟩ := hl.isValue_list hentries 1
  have hmembers : ∀ m ∈ s.written l, ∃ x, IsValue m.2 x ∧ (m.1 = "pieces" → x = .list items) := by
    obtain ⟨gs, -, hgs, -, -⟩ := spellsString_quote s.generatedAt
    simp only [written, List.forall_mem_cons]
    refine ⟨⟨_, .string hgs, fun h => absurd h (by decide)⟩,
      ⟨_, .number (isNumber_spellNat s.totalPieces), fun h => absurd h (by decide)⟩,
      ⟨_, .number (isNumber_spellNat s.freeCount), fun h => absurd h (by decide)⟩,
      ⟨_, hitems, fun _ => rfl⟩, List.forall_mem_nil _⟩
  obtain ⟨ms, hms, hall⟩ := hl.isValue_object Prod.fst hmembers 0
  have hnames : List.Forall₂ (fun key m => text? m.1 = some key.toList)
      ((s.written l).map Prod.fst) ms :=
    List.forall₂_map_left_iff.2 (hall.imp fun _ _ h => h.1)
  rw [written] at hall
  obtain ⟨_, _, -, hcounts, rfl⟩ := List.forall₂_cons_left_iff.1 hall
  obtain ⟨_, _, -, hfree, rfl⟩ := List.forall₂_cons_left_iff.1 hcounts
  obtain ⟨_, _, -, hlast, rfl⟩ := List.forall₂_cons_left_iff.1 hfree
  obtain ⟨⟨gs, x⟩, _, ⟨hgs, hx⟩, -, rfl⟩ := List.forall₂_cons_left_iff.1 hlast
  obtain rfl := hx rfl
  exact ⟨_, gs, items, hms, ⟨_, rfl, hnames⟩, by simp, hgs, hkeys⟩

end Layout

/-- **Every key is written once.** A piece that is made an entry keeps all its members but the own
ones, and so does the object of an entry that is read. The text of a snapshot is one phrase only, in
which the object of an entry has the keys of its piece in increasing order, the own ones behind
them, and no key twice. -/
theorem Entry.keys_once :
    (∀ (p : Piece) (t : Tier) (downloadUrl pageUrl key : String),
      (attach p t downloadUrl pageUrl).piece.get? key =
        if key ∈ ["access", "download_url", "metadata_url"] then none else p.get? key) ∧
    (∀ (text : String) (e : Entry), parse text = .ok e →
      ∃ ms, Denotes text.toList (.obj ms) ∧ ∀ key, e.piece.get? key =
        if key ∈ ["access", "download_url", "metadata_url"] then none
        else (ms.reverse.lookup key).map Value.canonical) ∧
    (∀ s : Snapshot, (∀ e ∈ s.pieces, e.Made) →
      ∃ ms gs items, (∀ x, IsText s.render.toList x ↔ x = .object ms) ∧
        (Phrase.object ms).HasKeys ["generated_at", "total_pieces", "free_count", "pieces"] ∧
        (gs, .list items) ∈ ms ∧ text? gs = some "pieces".toList ∧
        List.Forall₂ (fun (e : Entry) x => ∃ upstream : List String,
          x.HasKeys (upstream ++ ["access", "download_url", "metadata_url"]) ∧
          (∀ key, key ∈ upstream ↔ (e.piece.get? key).isSome) ∧ upstream.Pairwise (· < ·) ∧
          (upstream ++ ["access", "download_url", "metadata_url"]).Nodup) s.pieces items) := by
  refine ⟨get?_attach, fun text e h => get?_parse h, fun s hmade => ?_⟩
  obtain ⟨ms, gs, items, hms, hnames, hmem, hgs, hkeys⟩ := s.isValue_write Layout.blank_indented
  have htext : IsText s.render.toList (.object ms) := hms.isText
  have honly : ∀ x, IsText s.render.toList x ↔ x = .object ms :=
    fun x => ⟨fun hx => hx.unique htext, fun hx => hx ▸ htext⟩
  refine ⟨ms, gs, items, honly, hnames, hmem, hgs, ?_⟩
  have hboth := (List.forall₂_and_left s.pieces items).2 ⟨hmade, hkeys⟩
  refine hboth.imp ?_
  rintro e x ⟨he, hx⟩
  exact ⟨e.piece.fields.map Prod.fst, hx, fun key => Piece.isSome_get?_iff.symm,
    pairwise_keys e.piece.canonical, nodup_keys he.proper⟩

/-- A piece that has a tier of its own already. -/
def Piece.tiered : Piece := .ofMembers [("access", .arr []), ("filename", .str "a.mp3")]

/-- An entry with a repeated key, as another program might write it. -/
def Entry.foreign : String :=
  "\x7b\"feel\":null,\"access\":\"pro\",\"feel\":\"calm\",\"download_url\":\"d\",\"metadata_url\":\"m\"\x7d"

theorem Entry.keys_once_tiered :
    ∃ e, parse foreign = .ok e ∧ e.piece.get? "access" = none ∧
      (attach .tiered .free "d" "m").piece.get? "access" = none ∧
      ∃ ms gs x y,
        (∀ z, IsText (Snapshot.stamped "now" [attach .tiered .free "d" "m", e]).render.toList z ↔
          z = .object ms) ∧
        (gs, .list [x, y]) ∈ ms ∧
        (∃ keys, x.HasKeys (keys ++ ["access", "download_url", "metadata_url"]) ∧
          "filename" ∈ keys ∧ "access" ∉ keys) ∧
        ∃ keys, y.HasKeys (keys ++ ["access", "download_url", "metadata_url"]) ∧
          keys.Pairwise (· < ·) ∧ (keys ++ ["access", "download_url", "metadata_url"]).Nodup := by
  have hparse : (parse foreign).toOption.isSome := by decide +kernel
  cases he : parse foreign with
  | error refusal =>
    rw [he] at hparse
    cases hparse
  | ok e =>
    obtain ⟨hattach, hread, hwritten⟩ := keys_once
    obtain ⟨_, -, hlookup⟩ := hread foreign e he
    have hmade : ∀ f ∈ [attach .tiered .free "d" "m", e], f.Made :=
      List.forall_mem_cons.2 ⟨.attach .., List.forall_mem_singleton.2 (made_of_parse he)⟩
    obtain ⟨ms, gs, items, htext, -, hmem, -, hitems⟩ :=
      hwritten (.stamped "now" [attach .tiered .free "d" "m", e]) hmade
    obtain ⟨x, _, ⟨keys, hx, hkeys, -, -⟩, hrest, rfl⟩ := List.forall₂_cons_left_iff.1 hitems
    obtain ⟨y, _, ⟨keys', hy, -, hsorted, hnodup⟩, hnil, rfl⟩ := List.forall₂_cons_left_iff.1 hrest
    obtain rfl := List.forall₂_nil_left_iff.1 hnil
    refine ⟨e, rfl, hlookup "access", hattach .., ms, gs, x, y, htext, hmem,
      ⟨keys, hx, (hkeys _).2 (by decide), fun h => absurd ((hkeys _).1 h) (by decide)⟩,
      keys', hy, hsorted, hnodup⟩

end MusicCatalog
