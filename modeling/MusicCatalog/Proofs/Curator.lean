import Mathlib.Data.List.Infix
import MusicCatalog.Curator
import MusicCatalog.Proofs.Ascii
import MusicCatalog.Proofs.Files
import MusicCatalog.Proofs.Offer

/-!
# What a run writes

* `Piece.Mentions`, `Curator.kept`: the pieces of a listing that a curator keeps;
* `Snapshot.Catalogs`: a snapshot has one entry for each piece and counts them;
* `Curator.snapshot_eq_ok`, `Curator.run_eq`, `Curator.run_eq_ok`: a run, stage by stage;
* **`Curator.run_writes`**: the file and the report of a successful run.
-/

namespace MusicCatalog

open Files Text

/-! ## Pieces that are kept -/

/-- Some mood occurs in the description of the piece, both in lowercase. -/
def Piece.Mentions (moods : List String) (p : Piece) : Prop :=
  ∃ mood ∈ moods, (lowercase mood).toList <:+: (lowercase p.feel).toList

instance (moods : List String) (p : Piece) : Decidable (p.Mentions moods) := List.decidableBEx _ _

theorem byMood_eq (moods : List String) (pieces : List Piece) :
    byMood moods pieces = pieces.filter fun p => p.Mentions moods := by
  have hmood : Piece.hasMood (moods.map lowercase) = fun p => decide (p.Mentions moods) := by
    funext p
    rw [Bool.eq_iff_iff, decide_eq_true_iff, Piece.hasMood, List.any_map, List.any_eq_true,
      Piece.Mentions]
    simp only [Function.comp_apply, occursIn_iff, toList_lowercase]
  unfold byMood
  simp only [hmood]

/-! ## Catalogs -/

/-- The snapshot has an entry for each of the pieces, in their order, and counts its entries and the
free ones among them. -/
structure Snapshot.Catalogs (links : Links) (pieces : List Piece) (s : Snapshot) : Prop where
  entries : List.Forall₂ (Entry.Describes links) pieces s.pieces
  totalPieces : s.totalPieces = pieces.length
  freeCount : s.freeCount = s.pieces.countP fun e => e.tier = .free

theorem Snapshot.catalogs_stamped {links : Links} {pieces : List Piece} {es : List Entry}
    (h : List.Forall₂ (Entry.Describes links) pieces es) (now : String) :
    (stamped now es).Catalogs links pieces where
  entries := h
  totalPieces := h.length_eq.symm
  freeCount := rfl

namespace Curator

variable {c : Curator} {web : Web} {w : Random.Words} {now : String} {files files' : Tree}

/-- The first pieces, up to the limit, that mention a mood. -/
def kept (c : Curator) (fetched : List Piece) : List Piece :=
  (fetched.filter fun p => p.Mentions c.moods).take c.limit.toNat

theorem candidates_eq_ok {pieces : List Piece} :
    c.candidates web = .ok pieces ↔
      ∃ fetched, c.client.fetch web = .ok fetched ∧ pieces = c.kept fetched := by
  simp only [candidates, Client.fetchByMood, bind_eq_ok, byMood_eq, kept]
  constructor
  · rintro ⟨_, ⟨fetched, hfetch, h⟩, h'⟩
    cases h
    cases h'
    exact ⟨fetched, hfetch, rfl⟩
  · rintro ⟨fetched, hfetch, rfl⟩
    exact ⟨_, ⟨fetched, hfetch, rfl⟩, rfl⟩

theorem snapshot_eq_ok {s : Snapshot} :
    c.snapshot web w now = .ok s ↔
      ∃ fetched es, c.client.fetch web = .ok fetched ∧
        c.rule.entries (.ofSite c.client.site) (c.kept fetched) w = .ok es ∧
        s = .stamped now es := by
  simp only [snapshot, bind_eq_ok, candidates_eq_ok]
  constructor
  · rintro ⟨_, ⟨fetched, hfetch, rfl⟩, es, hes, h⟩
    cases h
    exact ⟨fetched, es, hfetch, hes, rfl⟩
  · rintro ⟨fetched, es, hfetch, hes, rfl⟩
    exact ⟨_, ⟨fetched, hfetch, rfl⟩, es, hes, rfl⟩

theorem save_eq_ok {path : String} {s : Snapshot} :
    save path s files = .ok files' ↔ files.write path s.render = .ok files' := by
  unfold save writeFile
  cases files.write path s.render <;> simp

/-- A run makes a snapshot, saves it and reports on it. -/
theorem run_eq (c : Curator) (web : Web) (w : Random.Words) (now : String) (files : Tree) :
    c.run web w now files = (do
      let s ← c.snapshot web w now
      .ok (c.report s, ← save c.outputPath s files)) := by
  unfold run make
  cases c.snapshot web w now with
  | error failure => rfl
  | ok s =>
    change (writeFile c.outputPath s.render files >>= fun files => Except.ok ((), files)) >>= _ = _
    rw [bind_assoc]
    rfl

theorem run_eq_ok {report : Report} :
    c.run web w now files = .ok (report, files') ↔
      ∃ s, c.snapshot web w now = .ok s ∧ files.write c.outputPath s.render = .ok files' ∧
        report = c.report s := by
  simp only [run_eq, bind_eq_ok, save_eq_ok]
  constructor
  · rintro ⟨s, hs, files', hwrite, h⟩
    cases h
    exact ⟨s, hs, hwrite, rfl⟩
  · rintro ⟨s, hs, hwrite, rfl⟩
    exact ⟨s, hs, files', hwrite, rfl⟩

theorem report_stamped (es : List Entry) :
    c.report (.stamped now es) =
      ⟨c.outputPath, es.length, es.countP fun e => e.tier = .free,
        es.countP fun e => e.tier = .pro⟩ := by
  have hpro : (fun e : Entry => !e.isFree) = fun e => decide (e.tier = .pro) := by
    funext e
    rw [Entry.isFree]
    cases e.tier <;> rfl
  rw [report, Snapshot.proCount?_stamped, hpro]
  rfl

/-- By position, a catalog has so many free entries as there are slots, or all of them. -/
theorem countP_free {links : Links} {pieces : List Piece} {es : List Entry}
    (h : c.rule.entries links pieces w = .ok es) (hindex : c.rule.selection = .index) :
    (es.countP fun e => e.tier = .free) = min c.rule.freeSlots.toNat pieces.length := by
  have hflags := (c.rule.entries_eq_ok h).2
  rw [← c.rule.countP_freeFlags hindex pieces w, ← hflags, List.countP_map]
  rfl

/-- **The file of a run** holds a catalog of the pieces that are kept, and nothing else: every piece
that mentions a mood, up to the limit, in the order of the listing, with all its fields and its
links. The report repeats what the catalog says. -/
theorem run_writes {report : Report} (h : c.run web w now files = .ok (report, files')) :
    ∃ fetched, ∃ s : Snapshot, c.client.fetch web = .ok fetched ∧ s.generatedAt = now ∧
      s.Catalogs (.ofSite c.client.site) (c.kept fetched) ∧
      (c.rule.selection = .index →
        s.freeCount = min c.rule.freeSlots.toNat (c.kept fetched).length) ∧
      files'.read? c.outputPath = some s.render ∧
      report = ⟨c.outputPath, s.totalPieces, s.freeCount,
        s.pieces.countP fun e => e.tier = .pro⟩ := by
  obtain ⟨s, hs, hwrite, rfl⟩ := run_eq_ok.1 h
  obtain ⟨fetched, es, hfetch, hes, rfl⟩ := snapshot_eq_ok.1 hs
  have hcatalog := Snapshot.catalogs_stamped (c.rule.entries_eq_ok hes).1 now
  exact ⟨fetched, .stamped now es, hfetch, rfl, hcatalog, countP_free hes,
    Tree.read?_of_write hwrite, report_stamped es⟩

/-- A listing with one piece twice, one in another mood, and one that has a tier of its own. -/
def mixedListing : List Char :=
  let piece (filename feel : String) : Json.Members :=
    [("feel", .str feel), ("filename", .str filename)]
  (Json.Value.arr [.obj (piece "a.mp3" "Calm"), .obj (piece "b" "sad"), .obj (piece "a.mp3" "Calm"),
    .obj (("access", .null) :: piece "c" "CALM")]).write .compact 0

/-- What comes of a request for that listing. -/
def mixedExchange : Exchange := .answered 200 (octetsOf mixedListing) true

/-- A curator of calm pieces, one of which is free. -/
def calm : Curator where
  client := ⟨⟨"http://pages", "http://files", "curator"⟩, Eq.refl true⟩
  moods := ["calm"]
  limit := 7
  rule := ⟨1, .index⟩
  outputPath := "/catalog"

theorem run_writes_calm :
    ∃ files', calm.run mixedExchange (.cycle [7]) "now" .empty =
        .ok (⟨"/catalog", 3, 1, 2⟩, files') ∧
      ∃ s : Snapshot, s.pieces.length = 3 ∧ files'.read? "/catalog" = some s.render := by
  have hrun : (calm.run mixedExchange (.cycle [7]) "now" .empty).toOption.map Prod.fst =
      some ⟨"/catalog", 3, 1, 2⟩ := by decide +kernel
  cases h : calm.run mixedExchange (.cycle [7]) "now" .empty with
  | error failure =>
    rw [h] at hrun
    cases hrun
  | ok p =>
    rw [h] at hrun
    obtain ⟨report, files'⟩ := p
    cases hrun
    obtain ⟨fetched, s, -, -, hcatalog, -, hread, hreport⟩ := run_writes h
    refine ⟨files', rfl, s, ?_, hread⟩
    rw [← hcatalog.entries.length_eq, ← hcatalog.totalPieces]
    exact (congrArg Report.totalPieces hreport).symm

end Curator

end MusicCatalog
