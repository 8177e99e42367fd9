import MusicCatalog.Proofs.Keys

/-!
# Snapshots whose members stand in any order

A program that lists the members of a snapshot in another order, or adds members of its own, has
written the same snapshot.

* `Json.meaning`: a member, as a reader knows it that may pass over its value;
* `isObject_meaning`, `IsObject.exists_phrase`: the objects of the grammar have such members;
* `Json.exists_meaning`: so have the objects that are written;
* `Snapshot.Holds.of_perm`: neither order nor foreign members make a difference;
* `Snapshot.exists_holds`: the members of a snapshot that is read back;
* **`Snapshot.parse_reordered`**: every other text with these members is read as that snapshot.
-/

namespace MusicCatalog

open Json Grammar

/-! ## Members and what they mean -/

namespace Json

/-- The key of a member, and what its value means, if it means anything. -/
def meaning (m : List Glyph × Phrase) : String × Option Value :=
  (String.ofList ((text? m.1).getD []), m.2.value?)

theorem exists_brace {t : List Char} {ms : List (List Glyph × Phrase)}
    (h : IsValue t (.object ms)) : ∃ r, t = '{' :: r := by
  cases h with
  | object => exact ⟨_, rfl⟩

theorem keyedBy_meaning {t : List Char} {m : List Glyph × Phrase} (h : IsMember IsValue t m)
    (hkey : (text? m.1).isSome) : KeyedBy Meant t (meaning m) := by
  obtain ⟨hk, hb, hb', hx⟩ := h
  obtain ⟨cs, hcs⟩ := Option.isSome_iff_exists.1 hkey
  dsimp only at hcs
  exact ⟨_, _, ⟨_, cs, hk, hcs, by rw [meaning, hcs]; rfl⟩,
    ⟨_, _, _, hb, hb', ⟨_, hx, rfl⟩, rfl⟩, rfl⟩

/-- An object whose keys are known. -/
theorem isObject_meaning {t : List Char} {ms : List (List Glyph × Phrase)}
    (h : IsValue t (.object ms)) (hkeys : ∀ m ∈ ms, (text? m.1).isSome) :
    IsObject Meant t (ms.map meaning) := by
  cases h with
  | @object s ts _ hs hms =>
    have hboth := (List.forall₂_and_left ms ts).2 ⟨hkeys, hms.flip⟩
    refine ⟨ts, s, List.forall₂_map_right_iff.2 (hboth.flip.imp ?_), hs, rfl⟩
    rintro u m ⟨hkey, hm⟩
    exact keyedBy_meaning hm hkey

theorem exists_member {t : List Char} {m : String × Option Value} (h : KeyedBy Meant t m) :
    ∃ n, IsMember IsValue t n ∧ meaning n = m := by
  obtain ⟨key, o⟩ := m
  obtain ⟨k, v, ⟨gs, cs, hk, hcs, hkey⟩, ⟨b, b', w, hb, hb', ⟨x, hx, ho⟩, rfl⟩, rfl⟩ := h
  dsimp only at hkey ho
  refine ⟨(gs, x), .mk hk hb hb' hx, ?_⟩
  rw [meaning, hcs, ho, hkey]
  rfl

/-- The text of an object with known keys is in the grammar. -/
theorem IsObject.exists_phrase {t : List Char} {ms : List (String × Option Value)}
    (h : IsObject Meant t ms) : ∃ ns, IsValue t (.object ns) ∧ ns.map meaning = ms := by
  obtain ⟨ts, s, hts, hs, rfl⟩ := h
  obtain ⟨ns, hns, hmeaning⟩ := forall₂_exists_iff.1 (hts.imp fun _ _ => exists_member)
  exact ⟨ns, .object hs hns, forall₂_map_eq_iff.1 hmeaning⟩

/-- **Written members** mean what their values mean. -/
theorem exists_meaning {l : Layout} (hl : l.Blank) (rows : List (String × List Char × Option Value))
    (h : ∀ r ∈ rows, Meant r.2.1 r.2.2) (level : Nat) :
    ∃ ms, IsValue (l.object level (rows.map fun r => (r.1, r.2.1))) (.object ms) ∧
      (∀ m ∈ ms, (text? m.1).isSome) ∧ ms.map meaning = rows.map fun r => (r.1, r.2.2) := by
  obtain ⟨ms, hms, hrows⟩ := hl.isValue_object Prod.fst h level
  refine ⟨ms, hms, ?_⟩
  clear h hms
  induction hrows with
  | nil => exact ⟨List.forall_mem_nil _, rfl⟩
  | @cons r m rows ms hm _ ih =>
    obtain ⟨hkey, hvalue⟩ := hm
    obtain ⟨hkeys, hmeaning⟩ := ih
    refine ⟨List.forall_mem_cons.2 ⟨by rw [hkey]; rfl, hkeys⟩, ?_⟩
    rw [List.map_cons, List.map_cons, hmeaning, meaning, hkey, hvalue, Option.getD_some,
      String.ofList_toList]

theorem HasOnce.of_perm {ν : Type} {key : String} {keys : List String} {P : ν → Prop}
    {ms ns : List (String × ν)} (h : HasOnce key P ms) (hkey : key ∈ keys)
    (hperm : (ns.filter fun n => keys.contains n.1).Perm ms) : HasOnce key P ns := by
  obtain ⟨v, hfilter, hv⟩ := h
  have hsame : (ns.filter fun n => keys.contains n.1).filter (fun n => n.1 == key) =
      ns.filter fun n => n.1 == key := by
    rw [List.filter_filter]
    refine List.filter_congr fun n _ => ?_
    rw [Bool.and_eq_left_iff_imp, beq_iff_eq]
    rintro rfl
    exact List.contains_iff_mem.2 hkey
  have hone := hperm.filter fun n => n.1 == key
  rw [hsame, hfilter, List.perm_singleton] at hone
  exact ⟨v, hone, hv⟩

end Json

namespace Snapshot

variable {s : Snapshot}

/-- **Neither order nor foreign members** make a difference to an object of a snapshot. -/
theorem Holds.of_perm {entries : Option Value → Prop} {ms ns : List (String × Option Value)}
    (h : s.Holds entries ms) (hperm : (ns.filter fun n => ownKeys.contains n.1).Perm ms) :
    s.Holds entries ns where
  generatedAt := h.generatedAt.of_perm (by decide) hperm
  totalPieces := h.totalPieces.of_perm (by decide) hperm
  freeCount := h.freeCount.of_perm (by decide) hperm
  pieces := h.pieces.of_perm (by decide) hperm

theorem passesBlanks_read (budget room : Nat) : PassesBlanks (read budget room) := by
  intro s
  simp only [read, skipBlanks_skipBlanks]

/-- A text of an object is read by the reader of objects. -/
theorem parse_brace {text : String} {r : List Char} (h : text.toList = '{' :: r) :
    parse text = document readObject text := by
  have hskip : skipBlanks text.toList = '{' :: r := by
    rw [h]
    exact skipBlanks_cons (by decide)
  simp only [parse, document, alone, read_brace hskip]

/-- The text of a snapshot is an object that gives whatever is read from it. -/
theorem exists_holds {t : Snapshot} (h : parse s.render = .ok t) :
    ∃ ms, (∀ x, IsText s.render.toList x ↔ x = .object ms) ∧
      (Phrase.object ms).HasKeys ["generated_at", "total_pieces", "free_count", "pieces"] ∧
      t.Holds (Lists 125 t.pieces) (ms.map meaning) := by
  obtain ⟨ms, -, -, hms, hkeys, -⟩ := s.isValue_write Layout.blank_indented
  have hrender : s.render.toList = s.write .indented := String.toList_ofList
  obtain ⟨r, hbrace⟩ := exists_brace hms
  rw [← hrender] at hbrace
  have htext : IsText s.render.toList (.object ms) := hms.isText
  rw [parse_brace hbrace] at h
  obtain ⟨b, u, b', hb, ⟨ns, hu, hholds⟩, hb', hns⟩ :=
    Takes.document (takes_object s.render.toList.length 125) h
  obtain ⟨ns, hvalue, rfl⟩ := hu.exists_phrase
  have hsame : IsText s.render.toList (.object ns) := hns ▸ .mk hb hvalue hb'
  obtain rfl : ns = ms := Phrase.object.inj (hsame.unique htext)
  exact ⟨ns, fun x => ⟨fun hx => hx.unique htext, fun hx => hx ▸ htext⟩, hkeys, hholds⟩

/-- **A snapshot is read from its members in any order.** If its own text is read back, then every
text of an object with these members, each once, and any others, is read as that same snapshot. The
others have keys that are strings; whatever their values are, they need not mean anything. -/
theorem parse_reordered (h : parse s.render = .ok s) :
    ∃ ms, (∀ x, IsText s.render.toList x ↔ x = .object ms) ∧
      (Phrase.object ms).HasKeys ["generated_at", "total_pieces", "free_count", "pieces"] ∧
      ∀ (text : String) (ns : List (List Glyph × Phrase)), IsText text.toList (.object ns) →
        (∀ n ∈ ns, (text? n.1).isSome) →
        ((ns.map meaning).filter fun n => ["generated_at", "total_pieces", "free_count",
          "pieces"].contains n.1).Perm (ms.map meaning) →
        parse text = .ok s := by
  obtain ⟨ms, hms, hkeys, hholds⟩ := exists_holds h
  refine ⟨ms, hms, hkeys, fun text ns htext hns hperm => ?_⟩
  obtain ⟨b, t, b', hb, ht, hb', htext⟩ := htext.parts
  have hlength : t.length ≤ text.toList.length := by
    rw [htext, List.length_append, List.length_append]
    omega
  have hread : Reads (read text.toList.length maxDepth) t
      (if True then .ok s else .error .tooDeep) := by
    refine reads_object (hholds.of_perm hperm) (isObject_meaning ht hns) hlength ?_
    intro u o hu ho hle
    rw [if_pos trivial]
    exact reads_entries ho hu hle
  rw [if_pos trivial] at hread
  exact document_blanks (passesBlanks_read _ _) hread hb hb' htext

/-- The text of a snapshot with its members backwards, between others of one key, whose values mean
nothing: half a surrogate pair, and a number that is out of range. -/
def scattered (s : Snapshot) : String :=
  String.ofList (Layout.compact.object 0 ((s.written .compact).reverse.flatMap fun m =>
    [("note", "\"\\ud800\"".toList), m, ("note", "[[1e999]]".toList)]))

theorem meant_surrogate : Meant "\"\\ud800\"".toList none := by
  have hglyph : IsGlyph ['\\', 'u', 'd', '8', '0', '0'] (.unit 0xd800) :=
    .coded (i := 13) (j := 8) (k := 0) (l := 0) ⟨by decide, .inl rfl⟩ ⟨by decide, .inl rfl⟩
      ⟨by decide, .inl rfl⟩ ⟨by decide, .inl rfl⟩
  exact ⟨.string [.unit 0xd800], .string (.mk (.cons hglyph .nil)), rfl⟩

theorem meant_number : Meant "[[1e999]]".toList none := by
  have hdigits : ∀ ds : List Char, ds ≠ [] → ds.all Char.isDigit → IsDigits ds :=
    fun ds hne h => ⟨hne, by simpa using h⟩
  have hwhole : IsWhole ['1'] := ⟨hdigits _ (by decide) (by decide), by decide⟩
  have hexponent : IsExponent ['e', '9', '9', '9'] (some (false, ['9', '9', '9'])) :=
    .bare (.inl rfl) (hdigits _ (by decide) (by decide))
  have hnumber : IsNumber ['1', 'e', '9', '9', '9']
      ⟨false, ['1'], none, some (false, ['9', '9', '9'])⟩ :=
    .unsigned (.mk hwhole .absent hexponent) rfl
  have hone : ∀ t, Separated [t] t :=
    fun t => ⟨[], [], blanks_nil, blanks_nil, (List.append_nil t).symm⟩
  have hlist : IsValue "[[1e999]]".toList (.list [.list [.number _]]) :=
    .list (hone _) (.cons (.list (hone _) (.cons (.number hnumber) .nil)) .nil)
  refine ⟨_, hlist, ?_⟩
  have hvalue : (Numeral.value? ⟨false, ['1'], none, some (false, ['9', '9', '9'])⟩).isNone := by
    decide +kernel
  simp only [Phrase.value?, itemValues?, Option.isNone_iff_eq_none.1 hvalue]
  rfl

theorem exists_scattered (hs : s.Faithful) :
    ∃ ms ns, IsText s.render.toList (.object ms) ∧ IsText (scattered s).toList (.object ns) ∧
      (∀ n ∈ ns, (text? n.1).isSome) ∧
      ((ns.map meaning).filter fun n => ownKeys.contains n.1).Perm (ms.map meaning) := by
  obtain ⟨total, free, -, -, hfloat, hwritten⟩ := exists_members hs
  have hmeant : ∀ l : Layout, l.Blank → ∀ m ∈ s.members total free,
      Meant (m.2.write l 1) (some m.2) :=
    fun l hl m hm => Json.spells_write hl (membersFloatFree_iff.1 hfloat m hm) 1
  obtain ⟨ms, hms, -, hmeaning⟩ := exists_meaning Layout.blank_indented
    ((s.members total free).map fun m => (m.1, m.2.write .indented 1, some m.2))
    (List.forall_mem_map.2 (hmeant _ Layout.blank_indented)) 0
  obtain ⟨ns, hns, hkeys, hmeaning'⟩ := exists_meaning Layout.blank_compact
    ((s.members total free).reverse.flatMap fun m =>
      [("note", "\"\\ud800\"".toList, none), (m.1, m.2.write .compact 1, some m.2),
        ("note", "[[1e999]]".toList, none)]) (by
      simp only [List.forall_mem_flatMap, List.mem_reverse, List.forall_mem_cons]
      exact fun m hm => ⟨meant_surrogate, hmeant _ Layout.blank_compact m hm, meant_number,
        List.forall_mem_nil _⟩) 0
  refine ⟨ms, ns, ?_, ?_, hkeys, ?_⟩
  · rw [render, write_eq, hwritten]
    exact hms.isText
  · rw [scattered, hwritten]
    exact hns.isText
  -- the four members are known, so what passes the filter can be computed
  · rw [hmeaning, hmeaning']
    exact List.reverse_perm ((s.members total free).map fun m => (m.1, some m.2))

/-- The deepest snapshot that is read back, with its members scattered. -/
theorem parse_scattered_nested : parse (scattered (nested 124)) = .ok (nested 124) := by
  obtain ⟨ms, ns, hrender, htext, hkeys, hperm⟩ := exists_scattered (faithful_nested 124)
  obtain ⟨ms', hms, -, hread⟩ :=
    parse_reordered (parse_render_eq (faithful_nested 124) (depthLe_nested.2 le_rfl))
  obtain rfl : ms = ms' := Phrase.object.inj ((hms _).1 hrender)
  exact hread _ ns htext hkeys hperm

end Snapshot

end MusicCatalog
