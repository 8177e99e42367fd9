import MusicCatalog.Proofs.Curator
import MusicCatalog.Proofs.Listing
import MusicCatalog.Proofs.RoundTrip

/-!
# Which files of a run are read back

The list of a file stands inside the object of its snapshot, and the list of a listing stands alone.
A value of a piece can therefore be one level too deep for the file although the listing was read.

* `Client.depth_of_fetch`: how deep the values of fetched pieces can be;
* `Snapshot.Catalogs.faithful`, `Snapshot.Catalogs.depthLe_iff`: what the pieces say about the
  catalog of them;
* **`Curator.run_rereads`**: the file is read back exactly if no value is as deep as that;
* `Curator.run_unreadable`: a listing that is read, and the file of it that is not.
-/

namespace MusicCatalog

open Files Json

/-! ## Fetched pieces -/

/-- The values of a fetched piece have at most 125 levels of brackets. -/
theorem Client.depth_of_fetch {client : Client} {web : Web} {ps : List Piece}
    (h : client.fetch web = .ok ps) : ∀ p ∈ ps, membersDepth p.fields ≤ 125 := by
  obtain ⟨url, octets, -, -, hps⟩ := fetch_eq_ok.1 h
  exact Piece.depth_of_parseList hps

/-- The values that an entry takes over from the piece have at most so many levels of brackets. -/
def Piece.DepthLe (p : Piece) (n : Nat) : Prop :=
  ∀ m ∈ p.fields, m.1 ∉ Entry.ownKeys → m.2.depth ≤ n

/-- The values that an entry takes over from the piece have no floating number. -/
def Piece.OthersFloatFree (p : Piece) : Prop :=
  ∀ m ∈ p.fields, m.1 ∉ Entry.ownKeys → m.2.FloatFree

theorem Piece.othersFloatFree {p : Piece} (h : MembersFloatFree p.fields) : p.OthersFloatFree :=
  fun m hm _ => membersFloatFree_iff.1 h m hm

/-! ## Catalogs of pieces -/

namespace Snapshot.Catalogs

variable {links : Links} {pieces : List Piece} {s : Snapshot}

/-- What all fields of the entries have is what all fields of the pieces have, but the own ones. -/
theorem forall_fields_iff (h : s.Catalogs links pieces) (Q : String × Value → Prop) :
    (∀ e ∈ s.pieces, ∀ m ∈ e.piece.fields, Q m) ↔
      ∀ p ∈ pieces, ∀ m ∈ p.fields, m.1 ∉ Entry.ownKeys → Q m := by
  obtain ⟨hentries, -, -⟩ := h
  generalize s.pieces = es at hentries
  induction hentries with
  | nil => simp
  | cons hp _ ih =>
    have hfields := hp.fields
    rw [List.forall_mem_cons, List.forall_mem_cons, ih, hfields]
    simp only [List.mem_filter, decide_eq_true_eq, and_imp]

theorem depthLe_iff (h : s.Catalogs links pieces) (n : Nat) :
    s.DepthLe n ↔ ∀ p ∈ pieces, p.DepthLe n :=
  h.forall_fields_iff fun m => m.2.depth ≤ n

/-- A catalog of pieces without floating numbers can be read back but for its depth. -/
theorem faithful (h : s.Catalogs links pieces) (hlength : pieces.length < UInt64.size)
    (hfree : ∀ p ∈ pieces, p.OthersFloatFree) : s.Faithful where
  totalPieces_lt := by
    rw [h.totalPieces]
    exact hlength
  freeCount_lt := by
    have hle := List.countP_le_length (p := fun e : Entry => decide (e.tier = .free)) (l := s.pieces)
    have hentries := h.entries.length_eq
    rw [h.freeCount]
    omega
  proper := (h.forall_fields_iff fun m => m.1 ∉ Entry.ownKeys).2 fun _ _ _ _ hm => hm
  floatFree := by
    have hfields := (h.forall_fields_iff fun m => m.2.FloatFree).2 hfree
    exact fun e he => membersFloatFree_iff.2 (hfields e he)

end Snapshot.Catalogs

/-! ## Runs -/

namespace Curator

variable {c : Curator} {web : Web} {w : Random.Words} {now : String} {files files' : Tree}
  {report : Report} {fetched : List Piece}

theorem mem_of_mem_kept {p : Piece} (h : p ∈ c.kept fetched) : p ∈ fetched :=
  (List.mem_filter.1 (List.mem_of_mem_take h)).1

theorem length_kept_lt (fetched : List Piece) : (c.kept fetched).length < UInt64.size := by
  have hlimit := c.limit.toNat_lt
  have hlength := List.length_take_le c.limit.toNat (fetched.filter fun p => p.Mentions c.moods)
  unfold kept
  change _ < 2 ^ 64
  omega

/-- The file of a run holds a snapshot that can be read back but for its depth, which is that of the
pieces that are kept. -/
theorem run_faithful (h : c.run web w now files = .ok (report, files'))
    (hfetch : c.client.fetch web = .ok fetched)
    (hfree : ∀ p ∈ fetched, MembersFloatFree p.fields) :
    ∃ s, c.snapshot web w now = .ok s ∧ files'.read? c.outputPath = some s.render ∧
      s.Faithful ∧ ∀ n, s.DepthLe n ↔ ∀ p ∈ c.kept fetched, p.DepthLe n := by
  obtain ⟨s, hs, hwrite, -⟩ := run_eq_ok.1 h
  obtain ⟨fetched', es, hfetch', hes, rfl⟩ := snapshot_eq_ok.1 hs
  obtain rfl : fetched = fetched' := Except.ok.inj (hfetch.symm.trans hfetch')
  have hcatalog := Snapshot.catalogs_stamped (c.rule.entries_eq_ok hes).1 now
  have hkept : ∀ p ∈ c.kept fetched, p.OthersFloatFree := fun p hp =>
    Piece.othersFloatFree (hfree p (mem_of_mem_kept hp))
  exact ⟨_, hs, Tree.read?_of_write hwrite, hcatalog.faithful (length_kept_lt fetched) hkept,
    hcatalog.depthLe_iff⟩

/-- **The file of a run is read back** as the snapshot that was written, if no piece without floating
numbers has a value of more than 124 levels of brackets, of the 125 that a fetch allows. Otherwise
the file is refused for its depth. -/
theorem run_rereads (h : c.run web w now files = .ok (report, files'))
    (hfetch : c.client.fetch web = .ok fetched)
    (hfree : ∀ p ∈ fetched, MembersFloatFree p.fields) :
    ∃ s, c.snapshot web w now = .ok s ∧ files'.read? c.outputPath = some s.render ∧
      (∀ p ∈ c.kept fetched, p.DepthLe 125) ∧
      ((∀ p ∈ c.kept fetched, p.DepthLe 124) → Snapshot.parse s.render = .ok s) ∧
      (¬ (∀ p ∈ c.kept fetched, p.DepthLe 124) →
        ∃ refusal, Snapshot.parse s.render = .error refusal ∧
          refusal.reason.message = "recursion limit exceeded") := by
  obtain ⟨s, hs, hread, hfaithful, hdepth⟩ := run_faithful h hfetch hfree
  refine ⟨s, hs, hread, fun p hp m hm _ => ?_, fun hle => ?_, fun hle => ?_⟩
  · exact membersDepth_le_iff.1 (Client.depth_of_fetch hfetch p (mem_of_mem_kept hp)) m hm
  · exact Snapshot.parse_render_eq hfaithful ((hdepth 124).2 hle)
  · obtain ⟨place, hplace⟩ := Snapshot.parse_render_refused hfaithful fun h => hle ((hdepth 124).1 h)
    exact ⟨_, hplace, rfl⟩

/-! ## The deepest listing -/

/-- A curator that keeps every piece. -/
def keepAll : Curator := { calm with moods := [""] }

/-- A listing of one piece with a value of some depth. -/
def nestedListing (n : Nat) : List Char := Piece.listing .compact [Snapshot.nestedPiece n]

/-- What comes of a request for that listing. -/
def nestedExchange (n : Nat) : Exchange := .answered 200 (Text.octetsOf (nestedListing n)) true

theorem ascii_nest (n level : Nat) : Text.Ascii ((Value.nest n).write .compact level) := by
  induction n generalizing level with
  | zero =>
    have hnull : Text.Ascii ['n', 'u', 'l', 'l'] := Text.ascii_of_all (by decide)
    exact hnull
  | succ n ih =>
    have hitem := List.forall_mem_singleton.2 (ih (level + 1))
    exact Text.ascii_enclose (by decide) (by decide) hitem level

theorem ascii_nestedListing (n : Nat) : Text.Ascii (nestedListing n) := by
  have hname : Text.Ascii (Layout.compact.member "filename" (quote "a\"\\\n.mp3")) :=
    Text.ascii_of_all (by decide)
  have hkey : Text.Ascii (quote "notes" ++ [':']) := Text.ascii_of_all (by decide)
  have hnotes : Text.Ascii (Layout.compact.member "notes" ((Value.nest n).write .compact 2)) :=
    List.forall_mem_append.2 ⟨hkey, ascii_nest n 2⟩
  have hpiece : Text.Ascii ((Snapshot.nestedPiece n).toValue.write .compact 1) :=
    Text.ascii_enclose (show '{'.toNat < 0x80 by decide) (show '}'.toNat < 0x80 by decide)
      (List.forall_mem_cons.2 ⟨hname, List.forall_mem_singleton.2 hnotes⟩) 1
  exact Text.ascii_enclose (by decide) (by decide) (List.forall_mem_singleton.2 hpiece) 0

section Nested

variable {n : Nat} (hn : n ≤ 125)

theorem floatFree_nested (n : Nat) :
    ∀ p ∈ [Snapshot.nestedPiece n], MembersFloatFree p.fields :=
  List.forall_mem_singleton.2 ⟨trivial, floatFree_nest n, trivial⟩

theorem kept_nested (n : Nat) :
    keepAll.kept [Snapshot.nestedPiece n] = [Snapshot.nestedPiece n] := by
  have hmood : (Snapshot.nestedPiece n).Mentions keepAll.moods :=
    ⟨"", List.mem_singleton_self "", List.nil_infix⟩
  rw [kept, List.filter_singleton, decide_eq_true hmood]
  rfl

theorem depthLe_nested {k : Nat} :
    (∀ p ∈ keepAll.kept [Snapshot.nestedPiece n], p.DepthLe k) ↔ n ≤ k := by
  have hname : "filename" ∉ Entry.ownKeys := by decide
  have hnotes : "notes" ∉ Entry.ownKeys := by decide
  rw [kept_nested, List.forall_mem_singleton, Piece.DepthLe, Snapshot.nestedPiece,
    List.forall_mem_cons, List.forall_mem_singleton, depth_nest]
  simp only [hname, hnotes, not_false_eq_true, forall_const]
  exact and_iff_right (Nat.zero_le k)

include hn

theorem fetch_nested :
    keepAll.client.fetch (nestedExchange n) = .ok [Snapshot.nestedPiece n] := by
  refine Client.fetch_written (Client.address_plain _) rfl (ascii_nestedListing n)
    (floatFree_nested n) ?_
  refine List.forall_mem_singleton.2 ?_
  rw [Piece.toValue, Value.depth, Snapshot.nestedPiece, membersDepth, membersDepth, membersDepth,
    Value.depth, depth_nest]
  omega

theorem run_nested :
    ∃ report files', keepAll.run (nestedExchange n) (.cycle []) "now" .empty =
      .ok (report, files') := by
  have hentries : ∃ es, keepAll.rule.entries (.ofSite keepAll.client.site)
      (keepAll.kept [Snapshot.nestedPiece n]) (.cycle []) = .ok es := by
    have hnamed : OfferRule.firstNameless? [Snapshot.nestedPiece n] = none :=
      OfferRule.firstNameless?_eq_none.2 (List.forall_mem_singleton.2 rfl)
    rw [kept_nested, OfferRule.entries, hnamed]
    exact ⟨_, rfl⟩
  obtain ⟨es, hes⟩ := hentries
  have hs : keepAll.snapshot (nestedExchange n) (.cycle []) "now" = .ok (.stamped "now" es) :=
    snapshot_eq_ok.2 ⟨_, es, fetch_nested hn, hes, rfl⟩
  have htarget : Tree.empty.writeTarget "/catalog" = .ok ["catalog"] := by rfl
  exact ⟨_, _, run_eq_ok.2 ⟨_, hs, Tree.write_eq_ok.2 ⟨_, htarget, rfl⟩, rfl⟩⟩

end Nested

/-- Of a listing with a value of 125 levels of brackets a run makes a file that is refused. -/
theorem run_unreadable :
    ∃ report files', ∃ s : Snapshot,
      keepAll.run (nestedExchange 125) (.cycle []) "now" .empty = .ok (report, files') ∧
      (∃ fetched, keepAll.client.fetch (nestedExchange 125) = .ok fetched ∧
        ∀ p ∈ fetched, MembersFloatFree p.fields) ∧
      files'.read? keepAll.outputPath = some s.render ∧
      ∃ refusal, Snapshot.parse s.render = .error refusal ∧
        refusal.reason.message = "recursion limit exceeded" := by
  have hfetch := fetch_nested (n := 125) le_rfl
  obtain ⟨report, files', h⟩ := run_nested (n := 125) le_rfl
  obtain ⟨s, -, hread, hfaithful, hdepth⟩ := run_faithful h hfetch (floatFree_nested 125)
  obtain ⟨place, hplace⟩ := Snapshot.parse_render_refused hfaithful fun hle =>
    absurd (depthLe_nested.1 ((hdepth 124).1 hle)) (by decide)
  exact ⟨report, files', s, h, ⟨_, hfetch, floatFree_nested 125⟩, hread, _, hplace, rfl⟩

/-- Of a listing with one level less the file is read back. -/
theorem run_rereads_nested :
    ∃ report files', ∃ s : Snapshot,
      keepAll.run (nestedExchange 124) (.cycle []) "now" .empty = .ok (report, files') ∧
      files'.read? keepAll.outputPath = some s.render ∧ Snapshot.parse s.render = .ok s := by
  obtain ⟨report, files', h⟩ := run_nested (n := 124) (by decide)
  obtain ⟨s, -, hread, -, hparse, -⟩ := run_rereads h (fetch_nested (by decide))
    (floatFree_nested 124)
  exact ⟨report, files', s, h, hread, hparse (depthLe_nested.2 le_rfl)⟩

end Curator

end MusicCatalog
