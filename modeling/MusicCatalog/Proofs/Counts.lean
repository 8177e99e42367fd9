import MusicCatalog.Proofs.CommandLine
import MusicCatalog.Proofs.Reordered

/-!
# Counts that agree with the entries

A reader takes the counts of a snapshot as they are, and the entries for subscribers are what is left
when the free ones are taken from all. This cannot go below zero where the counts agree with the
entries, as they do in every snapshot that counts its own, and still do when it is read back.

* **`Snapshot.Counted`**: the counts agree with the entries, so that there is a third one;
* `Entry.exists_shows`: whatever a written entry means, its tier stands in it;
* `Counts.eq_of_countNumeral`, `exists_meant_entries`: what is read back of counts and of entries;
* `Snapshot.parse_render_counts`: what is read back of any snapshot, if anything is;
* `Curator.run_of_save`: a run does not fail once the file is written;
* **`Snapshot.counts_agree`**: every snapshot that is made, every run and every command.
-/

namespace MusicCatalog

open Json Grammar Files

/-! ## Members that are read back -/

namespace Json

/-- The members of an object that is written, but for the floating numbers. -/
theorem mem_of_memberValues? {ms ns : Members} {xs : List (List Glyph × Phrase)}
    (h : List.Forall₂ (fun m x => text? x.1 = some m.1.toList ∧
      (m.2.FloatFree → x.2.value? = some m.2)) ms xs)
    (hns : memberValues? xs = some ns) {m : String × Value} (hm : m ∈ ms) (hfree : m.2.FloatFree) :
    m ∈ ns := by
  induction h generalizing ns with
  | nil => cases hm
  | cons hx _ ih =>
    obtain ⟨hkey, hvalue⟩ := hx
    simp only [memberValues?, hkey, Option.bind_eq_bind, Option.bind_eq_some_iff, Option.pure_def,
      Option.some.injEq, exists_eq_left', String.ofList_toList] at hns
    obtain ⟨v, hv, rest, hrest, rfl⟩ := hns
    rcases List.mem_cons.1 hm with rfl | hm
    · rw [hvalue hfree, Option.some.injEq] at hv
      rw [← hv]
      exact List.mem_cons_self
    · exact List.mem_cons_of_mem _ (ih hrest hm)

end Json

theorem Tier.Names.eq {t u : Tier} (h : t.Names (.str u.name)) : t = u := by
  obtain h | h := h
  · exact Option.some.inj ((ofName?_eq_some_iff.2 rfl).symm.trans
      (ofName?_eq_some_iff.2 (Value.str.inj h).symm))
  · cases h

/-- Whatever the phrase of an entry means, the tier stands in it. -/
def Entry.Shows (e : Entry) (x : Phrase) : Prop :=
  ∀ ms, x.value? = some (.obj ms) → ("access", .str e.tier.name) ∈ ms

theorem Entry.exists_shows {l : Layout} (hl : l.Blank) (e : Entry) (level : Nat) :
    ∃ x, IsValue (e.toValue.write l level) x ∧ e.Shows x := by
  obtain ⟨xs, hxs, hmembers⟩ := Entry.exists_isValue_toValue hl e level
  refine ⟨.object xs, hxs, fun ms hms => ?_⟩
  obtain ⟨ns, hns, hobj⟩ := Option.map_eq_some_iff.1 hms
  cases hobj
  exact mem_of_memberValues? hmembers hns (by simp [Entry.members]) trivial

namespace Snapshot

variable {s t : Snapshot}

/-! ## Counted snapshots -/

/-- The counts are those of the entries, and those for subscribers can be counted as the rest. -/
structure Counted (s : Snapshot) : Prop where
  totalPieces : s.totalPieces = s.pieces.length
  freeCount : s.freeCount = s.pieces.countP fun e => e.tier = .free
  freeCount_le : s.freeCount ≤ s.totalPieces
  proCount : s.proCount? = some (s.pieces.countP fun e => e.tier = .pro)

/-- Two of the counts are enough. -/
theorem counted_of_counts (htotal : s.totalPieces = s.pieces.length)
    (hfree : s.freeCount = s.pieces.countP fun e => e.tier = .free) : s.Counted := by
  have htiers := Entry.length_eq_tiers s.pieces
  have hle : s.freeCount ≤ s.totalPieces := by omega
  refine ⟨htotal, hfree, hle, ?_⟩
  rw [proCount?, if_pos hle, Option.some.injEq]
  omega

theorem counted_stamped (now : String) (es : List Entry) : (stamped now es).Counted :=
  counted_of_counts rfl rfl

/-! ## Counts that are read back -/

/-- A count as it is written. -/
def countNumeral (n : Nat) : Numeral := ⟨false, spellNat n, none, none⟩

theorem meant_spellNat (n : Nat) : Meant (spellNat n) (countNumeral n).value? :=
  ⟨_, .number (isNumber_spellNat n), rfl⟩

/-- A count that is written counts nothing else. -/
theorem Counts.eq_of_countNumeral {m n : Nat} (h : Counts m (countNumeral n).value?) : m = n := by
  obtain ⟨k, hk, hm⟩ := h
  have hdigits : Nat.ofDigitChars 10 (spellNat n) 0 = n := Nat.ofDigitChars_ten_toDigits
  have hwhole : (countNumeral n).whole? = Whole.ofInt? n := by
    simp [countNumeral, Numeral.whole?, hdigits]
  rw [Numeral.value?, hwhole, Whole.ofInt?] at hk
  split_ifs at hk with hrange
  · cases hk
    exact Int.ofNat_inj.1 hm.symm
  · obtain ⟨x, -, hx⟩ := Option.map_eq_some_iff.1 hk
    cases hx

/-! ## Tiers that are read back -/

/-- Entries that are read from written ones have their tiers. -/
theorem exists_meant_entries {l : Layout} (hl : l.Blank) (es : List Entry) (level : Nat) :
    ∃ o, Meant (l.list level (es.map fun e => e.toValue.write l (level + 1))) o ∧
      ∀ room fs, Lists room fs o → fs.map Entry.tier = es.map Entry.tier := by
  obtain ⟨xs, hxs, hshows⟩ :=
    hl.isValue_list (fun e (_ : e ∈ es) => Entry.exists_shows hl e (level + 1)) level
  refine ⟨_, ⟨_, hxs, rfl⟩, ?_⟩
  rintro room fs ⟨objects, hlist, hfs⟩
  obtain ⟨vs, hvs, harr⟩ := Option.map_eq_some_iff.1 hlist
  cases harr
  have hobjects : List.Forall₂ (fun x ms => x.value? = some (.obj ms)) xs objects :=
    (List.forall₂_map_right_iff (R := fun (x : Phrase) v => x.value? = some v)).1
      (itemValues?_eq_some_iff.1 hvs)
  have hentries := forall₂_exists_iff.2 ⟨xs, hshows, forall₂_exists_iff.2 ⟨objects, hobjects, hfs⟩⟩
  refine forall₂_map_eq_iff.1 (List.forall₂_map_right_iff.2 (hentries.imp ?_).flip)
  rintro e f ⟨x, he, ms, hx, hf, -⟩
  exact (hf.access.of_mem (he ms hx)).eq

/-- **What is read back** of any snapshot, if anything is, has its counts and the tiers of its
entries. -/
theorem parse_render_counts (h : parse s.render = .ok t) :
    t.totalPieces = s.totalPieces ∧ t.freeCount = s.freeCount ∧
      t.pieces.map Entry.tier = s.pieces.map Entry.tier := by
  obtain ⟨ms, hms, -, hholds⟩ := exists_holds h
  obtain ⟨gs, -, hgs, -, -⟩ := spellsString_quote s.generatedAt
  obtain ⟨o, hentries, htiers⟩ := exists_meant_entries Layout.blank_indented s.pieces 1
  obtain ⟨ns, hns, -, hmeaning⟩ := exists_meaning Layout.blank_indented
    [("generated_at", quote s.generatedAt, (Phrase.string gs).value?),
      ("total_pieces", spellNat s.totalPieces, (countNumeral s.totalPieces).value?),
      ("free_count", spellNat s.freeCount, (countNumeral s.freeCount).value?), ("pieces", _, o)]
    (by
      simp only [List.forall_mem_cons]
      exact ⟨⟨_, .string hgs, rfl⟩, meant_spellNat _, meant_spellNat _, hentries,
        List.forall_mem_nil _⟩) 0
  obtain rfl : ns = ms := Phrase.object.inj ((hms _).1 hns.isText)
  rw [hmeaning] at hholds
  exact ⟨(hholds.totalPieces.of_mem (by simp)).eq_of_countNumeral,
    (hholds.freeCount.of_mem (by simp)).eq_of_countNumeral,
    htiers _ _ (hholds.pieces.of_mem (by simp))⟩

theorem Counted.of_parse_render (hs : s.Counted) (h : parse s.render = .ok t) : t.Counted := by
  obtain ⟨htotal, hfree, htiers⟩ := parse_render_counts h
  have hlength : t.pieces.length = s.pieces.length := by simpa using congrArg List.length htiers
  have hcount := congrArg (List.countP fun tier => tier = .free) htiers
  rw [List.countP_map, List.countP_map] at hcount
  refine counted_of_counts ?_ ?_
  · rw [htotal, hs.totalPieces, hlength]
  · rw [hfree, hs.freeCount]
    exact hcount.symm

end Snapshot

/-! ## Runs -/

namespace Curator

variable {c : Curator} {web : Web} {w : Random.Words} {now : String} {files files' : Tree}
  {s : Snapshot}

theorem exists_stamped (h : c.snapshot web w now = .ok s) : ∃ es, s = .stamped now es := by
  obtain ⟨-, es, -, -, hs⟩ := snapshot_eq_ok.1 h
  exact ⟨es, hs⟩

/-- **A run does not fail once its file is written**, and reports the counts of the snapshot. -/
theorem run_of_save (hs : c.snapshot web w now = .ok s)
    (hsave : save c.outputPath s files = .ok files') {pro : Nat} (hpro : s.proCount? = some pro) :
    c.run web w now files = .ok (⟨c.outputPath, s.totalPieces, s.freeCount, pro⟩, files') := by
  have hreport : c.report s = ⟨c.outputPath, s.totalPieces, s.freeCount, pro⟩ := by
    rw [report, hpro, Option.getD_some]
  exact run_eq_ok.2 ⟨s, hs, save_eq_ok.1 hsave, hreport.symm⟩

end Curator

open CommandLine in
/-- **The counts of a catalog** agree with its entries, in every snapshot that is made and in all that is
read back from the file of one. So the entries for subscribers can be counted as the rest, and when the
file is written neither a run nor a command can fail any more. -/
theorem Snapshot.counts_agree :
    (∀ (now : String) (es : List Entry), (stamped now es).Counted ∧
      ∀ path files files', save path (stamped now es) files = .ok files' →
        ∃ text, files'.read? path = some text ∧ ∀ t, parse text = .ok t → t.Counted) ∧
    ∀ (c : Curator) (web : Web) (w : Random.Words) (now : String) (files files' : Tree)
      (s : Snapshot), c.snapshot web w now = .ok s → save c.outputPath s files = .ok files' →
      (∃ es, s = stamped now es) ∧ ∃ pro, s.proCount? = some pro ∧
        c.run web w now files = .ok (⟨c.outputPath, s.totalPieces, s.freeCount, pro⟩, files') ∧
        ∀ arguments o, Options.ofArguments arguments = .ok o → o.curator = .ok c →
          perform arguments web w now files =
            ⟨reportText ⟨c.outputPath, s.totalPieces, s.freeCount, pro⟩, 0, files'⟩ := by
  refine ⟨fun now es => ⟨counted_stamped now es, fun path files files' hsave => ?_⟩, ?_⟩
  · exact ⟨_, Tree.read?_of_write (Curator.save_eq_ok.1 hsave),
      fun t => (counted_stamped now es).of_parse_render⟩
  intro c web w now files files' s hs hsave
  obtain ⟨es, rfl⟩ := Curator.exists_stamped hs
  have hpro := (counted_stamped now es).proCount
  have hrun := Curator.run_of_save hs hsave hpro
  refine ⟨⟨es, rfl⟩, _, hpro, hrun, fun arguments o ho hc => ?_⟩
  simp only [perform_eq, ho, hc, hrun]

/-- Two entries, one of which is free. -/
def Snapshot.pair : Snapshot :=
  stamped "now" [⟨nestedPiece 124, .pro, "", "/"⟩, ⟨nestedPiece 3, .free, "", "/"⟩]

theorem Snapshot.parse_render_pair : parse pair.render = .ok pair := by
  refine parse_render_eq ⟨by decide, by decide, ?_, ?_⟩ ?_
  · exact List.forall_mem_cons.2
      ⟨proper_nestedPiece _ _ _ _, List.forall_mem_singleton.2 (proper_nestedPiece _ _ _ _)⟩
  · exact List.forall_mem_cons.2
      ⟨floatFree_nestedPiece _, List.forall_mem_singleton.2 (floatFree_nestedPiece _)⟩
  · exact List.forall_mem_cons.2 ⟨depth_nestedPiece_le.2 le_rfl,
      List.forall_mem_singleton.2 (depth_nestedPiece_le.2 (by decide))⟩

open CommandLine in
theorem Snapshot.counts_agree_calm :
    (∃ files text t, save "/catalog" pair .empty = .ok files ∧ files.read? "/catalog" = some text ∧
      parse text = .ok t ∧ t.Counted ∧ t.proCount? = some 1) ∧
      ∃ c files', Curator.run c Curator.mixedExchange (.cycle [7]) "now" .empty =
          .ok (⟨"/catalog", 3, 1, 2⟩, files') ∧
        perform calmCommand Curator.mixedExchange (.cycle [7]) "now" .empty =
          ⟨reportText ⟨"/catalog", 3, 1, 2⟩, 0, files'⟩ := by
  obtain ⟨hcounted, hruns⟩ := counts_agree
  constructor
  · have htarget : Tree.empty.writeTarget "/catalog" = .ok ["catalog"] := by rfl
    have hsave : save "/catalog" pair .empty = .ok _ :=
      Curator.save_eq_ok.2 (Tree.write_eq_ok.2 ⟨_, htarget, rfl⟩)
    obtain ⟨text, htext, hread⟩ := (hcounted _ _).2 _ _ _ hsave
    have hrender : some pair.render = some text :=
      (Tree.read?_of_write (Curator.save_eq_ok.1 hsave)).symm.trans htext
    obtain rfl := Option.some.inj hrender
    have hpair := hread pair parse_render_pair
    exact ⟨_, _, pair, hsave, htext, parse_render_pair, hpair, hpair.proCount⟩
  · have hreport : (((Options.ofArguments calmCommand).toOption.bind fun o =>
        o.curator.toOption).bind fun c =>
          (c.run Curator.mixedExchange (.cycle [7]) "now" .empty).toOption.map Prod.fst) =
            some ⟨"/catalog", 3, 1, 2⟩ := by
      decide +kernel
    obtain ⟨c, hcurator, hreport⟩ := Option.bind_eq_some_iff.1 hreport
    obtain ⟨o, ho, hc⟩ := Option.bind_eq_some_iff.1 hcurator
    obtain ⟨⟨report, files'⟩, hrun, rfl⟩ := Option.map_eq_some_iff.1 hreport
    rw [toOption_eq_some] at ho hc hrun
    obtain ⟨s, hs, hwrite, -⟩ := Curator.run_eq_ok.1 hrun
    obtain ⟨-, pro, -, hrun', hperform⟩ := hruns c _ _ _ _ _ s hs (Curator.save_eq_ok.2 hwrite)
    obtain ⟨hsame, -⟩ := Prod.mk.inj (Except.ok.inj (hrun'.symm.trans hrun))
    exact ⟨c, files', hrun, hsame ▸ hperform _ o ho hc⟩

end MusicCatalog
