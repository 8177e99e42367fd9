import MusicCatalog.Proofs.Files
import MusicCatalog.Proofs.Curator
import MusicCatalog.Proofs.Keys

/-!
# A snapshot that was read is written and read back

The texts that a reader of snapshots accepts are much more various than those that are written. What it
gives is none the less always a snapshot whose own text it accepts again.

* `Entry.depth_read`: an entry has no more levels of brackets than there was room for;
* `Snapshot.lt_readCount`, `Snapshot.gives_readEntries`: counts and entries that are read;
* `Snapshot.Legible`, **`Snapshot.legible_read`**: what all snapshots that are read have in common;
* **`Snapshot.parse_settles`**: written and read back they stay the same.
-/

namespace MusicCatalog

open Files Json

/-! ## Entries -/

namespace Entry

theorem depth_read (budget room : Nat) : Gives (read budget room) fun e => e.toValue.depth ≤ room := by
  intro s p hp
  obtain ⟨-, -, -, ⟨ms, -, he, hdepth⟩, -⟩ := takes_read budget room s _ _ hp
  exact he.depth_le.trans hdepth

end Entry

namespace Snapshot

/-! ## Members -/

/-- A count that is read has 64 bits. -/
theorem lt_readCount : Gives readCount fun n => n < UInt64.size := by
  intro s p hp
  unfold readCount at hp
  split at hp
  · cases hp
  · split_ifs at hp
    obtain ⟨⟨v, rest⟩, -, hp⟩ := bind_eq_ok.1 hp
    cases v with
    | int n =>
      dsimp only at hp
      split_ifs at hp
      cases hp
      have hupper : n.toInt < 0x10000000000000000 := n.upper
      change n.toInt.toNat < 0x10000000000000000
      omega
    | _ => cases hp

/-- The entries were made by a reader, and have so many levels of brackets at most. -/
def EntriesRead (room : Nat) (es : List Entry) : Prop := ∀ e ∈ es, e.Made ∧ e.toValue.depth ≤ room

theorem gives_readEntries (budget room : Nat) :
    Gives (readEntries budget (room + 1)) (EntriesRead room) := by
  refine Gives.listOf (fun s p hp => ?_) budget
  exact ⟨.read hp, Entry.depth_read budget room s p hp⟩

/-! ## Objects and lists -/

/-- A snapshot as readers make it: counts of 64 bits, and entries with so many levels of brackets. -/
structure Legible (room : Nat) (s : Snapshot) : Prop where
  totalPieces_lt : s.totalPieces < UInt64.size
  freeCount_lt : s.freeCount < UInt64.size
  entries : EntriesRead room s.pieces

/-- The same for the parts of a snapshot that have been read so far. -/
structure Parts.Legible (room : Nat) (parts : Parts) : Prop where
  totalPieces_lt : ∀ n ∈ parts.totalPieces, n < UInt64.size
  freeCount_lt : ∀ n ∈ parts.freeCount, n < UInt64.size
  entries : ∀ es ∈ parts.pieces, EntriesRead room es

theorem Parts.legible_none (room : Nat) : Parts.none.Legible room := ⟨nofun, nofun, nofun⟩

theorem Parts.Legible.snapshot {room : Nat} {parts : Parts} (h : parts.Legible room) {s : Snapshot}
    (hs : parts.snapshot = .ok s) : s.Legible room := by
  obtain ⟨generatedAt, totalPieces, freeCount, pieces⟩ := parts
  -- all four parts are there
  cases generatedAt <;> cases totalPieces <;> cases freeCount <;> cases pieces <;> cases hs
  exact ⟨h.totalPieces_lt _ rfl, h.freeCount_lt _ rfl, h.entries _ rfl⟩

variable (budget room : Nat)

theorem legible_readMember {parts : Parts} (h : parts.Legible room) (key : String) :
    Gives (readMember budget (room + 1) parts key) (Parts.Legible room) := by
  intro s p hp
  unfold readMember at hp
  split_ifs at hp
  · obtain ⟨q, -, hp⟩ := bind_eq_ok.1 hp
    cases hp
    exact ⟨h.totalPieces_lt, h.freeCount_lt, h.entries⟩
  · obtain ⟨q, hcount, hp⟩ := bind_eq_ok.1 hp
    cases hp
    have hlt := lt_readCount.memberOnce key _ _ _ hcount
    exact ⟨by rintro _ ⟨⟩; exact hlt, h.freeCount_lt, h.entries⟩
  · obtain ⟨q, hcount, hp⟩ := bind_eq_ok.1 hp
    cases hp
    have hlt := lt_readCount.memberOnce key _ _ _ hcount
    exact ⟨h.totalPieces_lt, by rintro _ ⟨⟩; exact hlt, h.entries⟩
  · obtain ⟨q, hentries, hp⟩ := bind_eq_ok.1 hp
    cases hp
    have hread := (gives_readEntries budget room).memberOnce key _ _ _ hentries
    exact ⟨h.totalPieces_lt, h.freeCount_lt, by rintro _ ⟨⟩; exact hread⟩
  · -- the value of another key leaves nothing behind
    obtain ⟨r, -, hp⟩ := bind_eq_ok.1 hp
    obtain ⟨rest, -, hp⟩ := bind_eq_ok.1 hp
    cases hp
    exact h

theorem gives_element {α : Type} {value : Reader α} {P : α → Prop} (h : Gives value P) (count : Nat) :
    Gives (element value count) P := by
  intro s p hp
  obtain ⟨⟨next, r⟩, hnext, hp⟩ := bind_eq_ok.1 hp
  cases next with
  | none => cases hp
  | some v =>
    cases hp
    exact h.nextItem _ _ _ hnext v rfl

theorem legible_readElements : Gives (readElements budget (room + 1)) (Legible room) := by
  intro s p hp
  obtain ⟨⟨generatedAt, s₁⟩, -, hp⟩ := bind_eq_ok.1 hp
  obtain ⟨⟨totalPieces, s₂⟩, htotal, hp⟩ := bind_eq_ok.1 hp
  obtain ⟨⟨freeCount, s₃⟩, hfree, hp⟩ := bind_eq_ok.1 hp
  obtain ⟨⟨pieces, s₄⟩, hpieces, hp⟩ := bind_eq_ok.1 hp
  obtain ⟨rest, -, hp⟩ := bind_eq_ok.1 hp
  cases hp
  exact ⟨gives_element lt_readCount 1 _ _ htotal, gives_element lt_readCount 2 _ _ hfree,
    gives_element (gives_readEntries budget room) 3 _ _ hpieces⟩

/-- **A snapshot that is read**, as an object or as a list, is legible. -/
theorem legible_read : Gives (read budget (room + 2)) (Legible room) := by
  intro s p hp
  unfold read at hp
  split at hp
  · cases hp
  · split_ifs at hp
    · exact legible_readElements budget room _ p hp
    · obtain ⟨⟨parts, r⟩, hparts, hp⟩ := bind_eq_ok.1 hp
      have hlegible : parts.Legible room :=
        Gives.objectOf (fun _ h key => legible_readMember budget room h key)
          (Parts.legible_none room) budget _ _ hparts
      dsimp only at hp
      split at hp
      · next snapshot hsnapshot =>
        cases hp
        exact hlegible.snapshot hsnapshot
      · cases hp

/-! ## Texts -/

variable {text : String} {s : Snapshot}

theorem legible_of_parse (h : parse text = .ok s) : s.Legible 125 :=
  Gives.document (legible_read _ 125) h

theorem Legible.faithful {room : Nat} (h : s.Legible room)
    (hfree : ∀ e ∈ s.pieces, MembersFloatFree e.piece.fields) : s.Faithful where
  totalPieces_lt := h.totalPieces_lt
  freeCount_lt := h.freeCount_lt
  proper := fun e he => (h.entries e he).1.proper
  floatFree := hfree

/-- A snapshot that is read is read again from its own text. -/
theorem parse_render_of_parse (h : parse text = .ok s)
    (hfree : ∀ e ∈ s.pieces, MembersFloatFree e.piece.fields) : parse s.render = .ok s := by
  have hlegible := legible_of_parse h
  refine parse_render_eq (hlegible.faithful hfree) (depthLe_iff.2 fun e he => ?_)
  exact (hlegible.entries e he).2

/-- **Reading settles a snapshot.** Whatever text it was read from, if no floating number is left in
its pieces, then a file to which it is saved holds a text that is read as the same snapshot, and that
every file holds to which this one is saved. -/
theorem parse_settles (h : parse text = .ok s)
    (hfree : ∀ e ∈ s.pieces, MembersFloatFree e.piece.fields) :
    parse s.render = .ok s ∧
      ∀ path files written, save path s files = .ok written →
        ∃ w, written.read? path = some w ∧ parse w = .ok s ∧
          (∃ again, save path s written = .ok again) ∧
          ∀ t, parse w = .ok t → ∀ path' files' written', save path' t files' = .ok written' →
            written'.read? path' = some w := by
  have hread := parse_render_of_parse h hfree
  refine ⟨hread, fun path files written hsave => ?_⟩
  have hwrite := Curator.save_eq_ok.1 hsave
  refine ⟨s.render, Tree.read?_of_write hwrite, hread, ?_, fun t ht path' files' written' hsave' => ?_⟩
  · obtain ⟨l, hl, rfl⟩ := Tree.write_eq_ok.1 hwrite
    have htarget := (Tree.sameDirectories_put hl s.render).writeTarget.2 hl
    exact ⟨_, Curator.save_eq_ok.2 (Tree.write_eq_ok.2 ⟨l, htarget, rfl⟩)⟩
  · obtain rfl : t = s := Except.ok.inj (ht.symm.trans hread)
    exact Tree.read?_of_write (Curator.save_eq_ok.1 hsave')

/-- A snapshot as no curator writes it: its keys in another order, one that is unknown, a key of a
piece twice, a tier as an object, and counts that do not agree with its entry. -/
def foreign : String :=
  "\x7b\"free_count\":7,\"note\":[1e5],\"pieces\":[\x7b\"feel\":1.5,\"access\":\x7b\"free\":null\x7d," ++
    "\"f\\u0065el\":[-1],\"metadata_url\":\"m\",\"download_url\":\"d\"\x7d],\n\"total_pieces\":0," ++
    "\"generated_at\":\"now\"\x7d"

theorem parse_settles_foreign :
    ∃ s, parse foreign = .ok s ∧ s.freeCount = 7 ∧ s.pieces.length = 1 ∧
      ∃ written, save "/catalog" s .empty = .ok written ∧
        ∃ w, written.read? "/catalog" = some w ∧ parse w = .ok s := by
  have hparse : (parse foreign).toOption.map (fun s => (s.freeCount, s.pieces.length,
      decide (∀ e ∈ s.pieces, MembersFloatFree e.piece.fields))) = some (7, 1, true) := by
    decide +kernel
  cases hs : parse foreign with
  | error refusal =>
    rw [hs] at hparse
    cases hparse
  | ok s =>
    rw [hs] at hparse
    obtain ⟨hcount, hrest⟩ := Prod.mk.inj (Option.some.inj hparse)
    obtain ⟨hlength, hfree⟩ := Prod.mk.inj hrest
    have htarget : Tree.empty.writeTarget "/catalog" = .ok ["catalog"] := by rfl
    have hsave : save "/catalog" s .empty = .ok _ :=
      Curator.save_eq_ok.2 (Tree.write_eq_ok.2 ⟨_, htarget, rfl⟩)
    obtain ⟨-, hsaved⟩ := parse_settles hs (of_decide_eq_true hfree)
    obtain ⟨w, hw, hread, -⟩ := hsaved _ _ _ hsave
    exact ⟨s, rfl, hcount, hlength, _, hsave, w, hw, hread⟩

end Snapshot

end MusicCatalog
