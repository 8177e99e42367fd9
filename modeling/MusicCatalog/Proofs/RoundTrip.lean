import MusicCatalog.Proofs.Snapshot

/-!
# Snapshots are read back

* `Snapshot.Faithful`: the counts and the entries that a reader could have made;
* `Snapshot.spells_write`: what the written form means, in any layout with blank gaps;
* **`Snapshot.reads_read`**: the written form is read back;
* `Snapshot.parse_render_eq`, `Snapshot.parse_render_refused`: the text of a file.
-/

namespace MusicCatalog

open Json

namespace Snapshot

variable (s : Snapshot)

/-- The snapshot, if there is room for the brackets of its entries. -/
def within (room : Nat) : Except Reason Snapshot :=
  if ∀ e ∈ s.pieces, e.toValue.depth ≤ room then .ok s else .error .tooDeep

/-- What a snapshot needs, besides some depth, to be read back: counts of 64 bits, and pieces with
none of the members of their entries and no floating number. -/
structure Faithful (s : Snapshot) : Prop where
  totalPieces_lt : s.totalPieces < UInt64.size
  freeCount_lt : s.freeCount < UInt64.size
  proper : ∀ e ∈ s.pieces, e.Proper
  floatFree : ∀ e ∈ s.pieces, MembersFloatFree e.piece.fields

/-- The snapshot as members of an object, with its counts as integers. -/
def members (total free : Whole) : Members :=
  [("generated_at", .str s.generatedAt), ("total_pieces", .int total), ("free_count", .int free),
    ("pieces", .arr (s.pieces.map Entry.toValue))]

/-- The members of a snapshot as they are written. -/
def written (l : Layout) : List (String × List Char) :=
  [("generated_at", quote s.generatedAt),
    ("total_pieces", spellNat s.totalPieces),
    ("free_count", spellNat s.freeCount),
    ("pieces", l.list 1 (s.pieces.map fun e => e.toValue.write l 2))]

variable {s} {l : Layout}

theorem write_eq (s : Snapshot) (l : Layout) : s.write l = l.object 0 (s.written l) := rfl

theorem floatFree_entries (hs : s.Faithful) :
    (Value.arr (s.pieces.map Entry.toValue)).FloatFree :=
  itemsFloatFree_iff.2 <| List.forall_mem_map.2 fun e he =>
    Entry.floatFree_toValue (hs.floatFree e he)

/-- What is written are the members of the snapshot. -/
theorem exists_members (hs : s.Faithful) :
    ∃ total free : Whole, total.toInt = s.totalPieces ∧ free.toInt = s.freeCount ∧
      MembersFloatFree (s.members total free) ∧
      ∀ l, s.written l = (s.members total free).map fun m => (m.1, m.2.write l 1) := by
  obtain ⟨total, htotal, hspellTotal⟩ := exists_spell_eq hs.totalPieces_lt
  obtain ⟨free, hfree, hspellFree⟩ := exists_spell_eq hs.freeCount_lt
  have hvalues : MembersFloatFree (s.members total free) :=
    ⟨trivial, trivial, trivial, floatFree_entries hs, trivial⟩
  refine ⟨total, free, htotal, hfree, hvalues, fun l => ?_⟩
  rw [written, members, ← hspellTotal, ← hspellFree]
  simp only [List.map_cons, List.map_nil, Value.write, writeItems_eq_map, List.map_map]
  rfl

/-- The written form means the members of the snapshot. -/
theorem spells_write (hl : l.Blank) (hs : s.Faithful) :
    ∃ total free : Whole, total.toInt = s.totalPieces ∧ free.toInt = s.freeCount ∧
      Spells (s.write l) (.obj (s.members total free)) := by
  obtain ⟨total, free, htotal, hfree, hvalues, hwritten⟩ := exists_members hs
  have hwrite : s.write l = (Value.obj (s.members total free)).write l 0 := by
    rw [write_eq, Value.write, writeMembers_eq_map, hwritten]
  refine ⟨total, free, htotal, hfree, ?_⟩
  rw [hwrite]
  exact Json.spells_write (v := .obj (s.members total free)) hl hvalues 0

/-- The entries as they are written are read back, if there is room for the brackets of each. -/
theorem reads_written (hs : s.Faithful) {budget : Nat} {t : List Char}
    (ht : Spells t (.arr (s.pieces.map Entry.toValue))) (hb : t.length ≤ budget) (room : Nat) :
    Reads (readEntries budget (room + 1)) t
      (if ∀ e ∈ s.pieces, e.toValue.depth ≤ room then .ok s.pieces else .error .tooDeep) := by
  have hlist : IsList (fun u (e : Entry) => Spells u e.toValue) t s.pieces := by
    rw [spells_arr_iff] at ht
    simpa only [IsList, List.forall₂_map_right_iff] using ht
  have hmapM := mapM_ite (P := fun e : Entry => e.toValue.depth ≤ room) Reason.tooDeep s.pieces
  rw [← hmapM]
  exact hlist.reads (fun _ _ hu => hu.solid) hb fun e he u hu hle =>
    Entry.reads_read (hs.proper e he) hu (hle.trans hb) room

/-- **A written snapshot is read back**, if there is room for the brackets of its entries inside
those of the snapshot and of its list. -/
theorem reads_read (hl : l.Blank) (hs : s.Faithful) {budget room : Nat}
    (hb : (s.write l).length ≤ budget) :
    Reads (read budget (room + 2)) (s.write l) (s.within room) := by
  obtain ⟨total, free, htotal, hfree, hspells⟩ := spells_write hl hs
  have hobject : IsObject Meant (s.write l) ((s.members total free).map fun m => (m.1, some m.2)) :=
    (spells_obj_iff_isObject.1 hspells).meant
  have hholds : s.Holds (· = some (.arr (s.pieces.map Entry.toValue)))
      ((s.members total free).map fun m => (m.1, some m.2)) :=
    ⟨⟨_, rfl, rfl⟩, ⟨_, rfl, total, rfl, htotal⟩, ⟨_, rfl, free, rfl, hfree⟩, ⟨_, rfl, rfl⟩⟩
  refine reads_object hholds hobject hb ?_
  rintro u o hu rfl hle
  exact reads_written hs hu hle room

/-- The text of a snapshot has room for 125 levels of brackets in each entry. -/
theorem reads_render (hs : s.Faithful) :
    Reads (read s.render.toList.length maxDepth) s.render.toList (s.within 125) := by
  have htext : s.render.toList = s.write .indented := String.toList_ofList
  rw [htext]
  exact reads_read Layout.blank_indented hs le_rfl

/-- The values in a snapshot's pieces have at most so many levels of brackets. -/
def DepthLe (s : Snapshot) (n : Nat) : Prop :=
  ∀ e ∈ s.pieces, ∀ m ∈ e.piece.fields, m.2.depth ≤ n

theorem depthLe_iff {n : Nat} : s.DepthLe n ↔ ∀ e ∈ s.pieces, e.toValue.depth ≤ n + 1 := by
  have hentry : ∀ e : Entry, e.toValue.depth ≤ n + 1 ↔ ∀ m ∈ e.piece.fields, m.2.depth ≤ n := by
    intro e
    rw [e.depth_toValue, Nat.add_comm 1, Nat.add_le_add_iff_right, membersDepth_le_iff]
  simp only [DepthLe, hentry]

theorem parse_render_eq (hs : s.Faithful) (hdepth : s.DepthLe 124) :
    parse s.render = .ok s := by
  have hread := reads_render hs
  rw [within, if_pos (depthLe_iff.1 hdepth)] at hread
  exact document_ok hread

theorem parse_render_refused (hs : s.Faithful) (hdepth : ¬ s.DepthLe 124) :
    ∃ place, parse s.render = .error ⟨.tooDeep, place⟩ := by
  have hread := reads_render hs
  rw [within, if_neg fun h => hdepth (depthLe_iff.2 h)] at hread
  exact document_error hread

/-- **A snapshot is read back from its file** exactly when no value in its pieces has more than 124
levels of brackets; otherwise the file is refused for its depth. -/
theorem parse_render (hs : s.Faithful) :
    (s.DepthLe 124 → parse s.render = .ok s) ∧
      (¬ s.DepthLe 124 → ∃ refusal, parse s.render = .error refusal ∧
        refusal.reason.message = "recursion limit exceeded") := by
  refine ⟨parse_render_eq hs, fun hdepth => ?_⟩
  obtain ⟨place, h⟩ := parse_render_refused hs hdepth
  exact ⟨⟨.tooDeep, place⟩, h, rfl⟩

/-- A piece with a name that has to be escaped and a value of some depth. -/
def nestedPiece (n : Nat) : Piece where
  fields := [("filename", .str "a\"\\\n.mp3"), ("notes", .nest n)]
  canonical := by
    refine ⟨?_, trivial, ?_, isCanonical_nest n, trivial⟩
    · change ∀ l ∈ ["notes"], "filename" < l
      decide
    · exact List.forall_mem_nil _

theorem proper_nestedPiece (n : Nat) (t : Tier) (downloadUrl pageUrl : String) :
    (⟨nestedPiece n, t, downloadUrl, pageUrl⟩ : Entry).Proper :=
  List.forall_mem_cons.2 ⟨show "filename" ∉ Entry.ownKeys by decide,
    List.forall_mem_singleton.2 (show "notes" ∉ Entry.ownKeys by decide)⟩

theorem floatFree_nestedPiece (n : Nat) : MembersFloatFree (nestedPiece n).fields :=
  ⟨trivial, floatFree_nest n, trivial⟩

theorem depth_nestedPiece_le {n m : Nat} : (∀ f ∈ (nestedPiece n).fields, f.2.depth ≤ m) ↔ n ≤ m := by
  rw [nestedPiece, List.forall_mem_cons, List.forall_mem_singleton, depth_nest]
  exact and_iff_right (Nat.zero_le m)

/-- A snapshot of such a piece. -/
def nested (n : Nat) : Snapshot :=
  ⟨"now", 18446744073709551615, 0, [⟨nestedPiece n, .pro, "", "/"⟩]⟩

theorem faithful_nested (n : Nat) : (nested n).Faithful where
  totalPieces_lt := show 18446744073709551615 < UInt64.size by decide
  freeCount_lt := show 0 < UInt64.size by decide
  proper := List.forall_mem_singleton.2 (proper_nestedPiece n .pro "" "/")
  floatFree := List.forall_mem_singleton.2 (floatFree_nestedPiece n)

theorem depthLe_nested {n m : Nat} : (nested n).DepthLe m ↔ n ≤ m := by
  rw [DepthLe, nested, List.forall_mem_singleton, depth_nestedPiece_le]

/-- The deepest value that is read back, and the first that is not. -/
theorem parse_render_nested :
    parse (nested 124).render = .ok (nested 124) ∧
      ∃ refusal, parse (nested 125).render = .error refusal ∧
        refusal.reason.message = "recursion limit exceeded" :=
  ⟨(parse_render (faithful_nested 124)).1 (depthLe_nested.2 le_rfl),
    (parse_render (faithful_nested 125)).2 fun h => absurd (depthLe_nested.1 h) (by decide)⟩

end Snapshot

end MusicCatalog
