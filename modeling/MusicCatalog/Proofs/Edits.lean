import Mathlib.Logic.Relation
import MusicCatalog.Proofs.Curator
import MusicCatalog.Proofs.Fetch

/-!
# Pieces that are not kept do not matter

A curator looks at the pieces it keeps and at nothing else, so a listing may be changed anywhere
else, and even a piece without a file name does no harm there.

* `Curator.Edit`: one change to a listing, away from the pieces that are kept;
* `Curator.kept_edit`, `Curator.kept_edits`: the same pieces are kept after one change, or any number;
* `Curator.Agree`: two runs come to the same, but for their dates;
* `Curator.FirstNameless`, **`Curator.run_malformed_iff`**: when a run fails for a missing name;
* **`Curator.run_edited`**: both for two listings that differ by such changes.
-/

namespace MusicCatalog

open Files Json

namespace Curator

variable {c : Curator} {web : Web} {w : Random.Words} {now : String} {files : Tree}

/-! ## Changes -/

/-- A change to a listing that touches none of the pieces a curator keeps: a piece that mentions no
mood comes or goes anywhere, or any piece comes, goes or becomes another one where so many pieces
before it mention a mood that the limit is reached. -/
inductive Edit (c : Curator) : List Piece → List Piece → Prop
  | insertUnmentioned {before after : List Piece} {p : Piece} (hp : ¬ p.Mentions c.moods) :
    Edit c (before ++ after) (before ++ p :: after)
  | deleteUnmentioned {before after : List Piece} {p : Piece} (hp : ¬ p.Mentions c.moods) :
    Edit c (before ++ p :: after) (before ++ after)
  | insertLate {before after : List Piece} (p : Piece)
    (hlate : c.limit.toNat ≤ before.countP fun q => q.Mentions c.moods) :
    Edit c (before ++ after) (before ++ p :: after)
  | deleteLate {before after : List Piece} (p : Piece)
    (hlate : c.limit.toNat ≤ before.countP fun q => q.Mentions c.moods) :
    Edit c (before ++ p :: after) (before ++ after)
  | alterLate {before after : List Piece} (p q : Piece)
    (hlate : c.limit.toNat ≤ before.countP fun q => q.Mentions c.moods) :
    Edit c (before ++ p :: after) (before ++ q :: after)

/-- Behind the last piece that is kept nothing matters. -/
theorem kept_append {before : List Piece}
    (hlate : c.limit.toNat ≤ before.countP fun q => q.Mentions c.moods) (after : List Piece) :
    c.kept (before ++ after) = c.kept before := by
  rw [kept, kept, List.filter_append]
  exact List.take_append_of_le_length (by rwa [← List.countP_eq_length_filter])

theorem kept_unmentioned {p : Piece} (hp : ¬ p.Mentions c.moods) (before after : List Piece) :
    c.kept (before ++ p :: after) = c.kept (before ++ after) := by
  rw [kept, kept, List.filter_append, List.filter_append,
    List.filter_cons_of_neg (by simpa using hp)]

/-- A change touches no piece that is kept. -/
theorem kept_edit {ps qs : List Piece} (h : c.Edit ps qs) : c.kept ps = c.kept qs := by
  cases h with
  | insertUnmentioned hp => exact (kept_unmentioned hp _ _).symm
  | deleteUnmentioned hp => exact kept_unmentioned hp _ _
  | insertLate p hlate => rw [kept_append hlate, kept_append hlate]
  | deleteLate p hlate => rw [kept_append hlate, kept_append hlate]
  | alterLate p q hlate => rw [kept_append hlate, kept_append hlate]

/-- Any number of changes touch no piece that is kept. -/
theorem kept_edits {ps qs : List Piece} (h : Relation.ReflTransGen c.Edit ps qs) :
    c.kept ps = c.kept qs := by
  induction h with
  | refl => rfl
  | tail _ hedit ih => exact ih.trans (kept_edit hedit)

/-! ## Runs on what is kept -/

/-- The run with the pieces that are kept. -/
def finish (c : Curator) (kept : List Piece) (w : Random.Words) (now : String) (files : Tree) :
    Except Failure (Report × Tree) := do
  let es ← c.rule.entries (.ofSite c.client.site) kept w
  .ok (c.report (.stamped now es), ← save c.outputPath (.stamped now es) files)

theorem run_eq_finish {fetched : List Piece} (h : c.client.fetch web = .ok fetched) :
    c.run web w now files = c.finish (c.kept fetched) w now files := by
  have hkept : c.candidates web = .ok (c.kept fetched) :=
    candidates_eq_ok.2 ⟨fetched, h, rfl⟩
  rw [run_eq, snapshot, hkept]
  change ((c.rule.entries (.ofSite c.client.site) (c.kept fetched) w >>= fun es =>
    Except.ok (Snapshot.stamped now es)) >>= fun s =>
      save c.outputPath s files >>= fun files => Except.ok (c.report s, files)) = _
  rw [bind_assoc]
  rfl

/-- Two runs come to the same: they fail alike, or they give the same report and write the same
entries, each with its own date. -/
inductive Agree (c : Curator) (files : Tree) (now now' : String) :
    Except Failure (Report × Tree) → Except Failure (Report × Tree) → Prop
  | failed (failure : Failure) : Agree c files now now' (.error failure) (.error failure)
  | written {report : Report} {es : List Entry} {written written' : Tree}
    (h : files.write c.outputPath (Snapshot.stamped now es).render = .ok written)
    (h' : files.write c.outputPath (Snapshot.stamped now' es).render = .ok written') :
    Agree c files now now' (.ok (report, written)) (.ok (report, written'))

theorem agree_finish (c : Curator) (kept : List Piece) (w : Random.Words) (now now' : String)
    (files : Tree) :
    c.Agree files now now' (c.finish kept w now files) (c.finish kept w now' files) := by
  unfold finish
  cases c.rule.entries (.ofSite c.client.site) kept w with
  | error failure => exact .failed failure
  | ok es =>
    -- whether a file can be written depends on its path only
    have hwrite : ∀ text, files.write c.outputPath text =
        (files.writeTarget c.outputPath).map fun l => files.put l (.file text) := by
      intro text
      rw [Tree.write]
      cases files.writeTarget c.outputPath <;> rfl
    have hreport : c.report (.stamped now' es) = c.report (.stamped now es) := by
      rw [report_stamped, report_stamped]
    change c.Agree files now now'
      (save c.outputPath (.stamped now es) files >>= fun t => .ok (c.report (.stamped now es), t))
      (save c.outputPath (.stamped now' es) files >>= fun t => .ok (c.report (.stamped now' es), t))
    rw [hreport]
    unfold save writeFile
    cases htarget : files.writeTarget c.outputPath with
    | error cause =>
      rw [hwrite, hwrite, htarget]
      exact .failed (.file cause)
    | ok l =>
      rw [hwrite, hwrite, htarget]
      exact .written (by rw [hwrite, htarget]; rfl) (by rw [hwrite, htarget]; rfl)

/-! ## Missing names -/

/-- Of the pieces that mention a mood, the one at this position, counted from zero, is the first
whose file name is missing or no string, and it is within the limit. -/
def FirstNameless (c : Curator) (fetched : List Piece) (position : Nat) : Prop :=
  let mentioned := fetched.filter fun p => p.Mentions c.moods
  position < c.limit.toNat ∧
    (∃ p, mentioned[position]? = some p ∧ ∀ s, p.get? "filename" ≠ some (.str s)) ∧
    ∀ i < position, ∃ p s, mentioned[i]? = some p ∧ p.get? "filename" = some (.str s)

theorem firstNameless?_kept {fetched : List Piece} {position : Nat} :
    OfferRule.firstNameless? (c.kept fetched) = some position ↔ c.FirstNameless fetched position := by
  rw [OfferRule.firstNameless?_eq_some, kept, FirstNameless]
  generalize fetched.filter (fun p => decide (p.Mentions c.moods)) = mentioned
  have htake : ∀ i < c.limit.toNat, (mentioned.take c.limit.toNat)[i]? = mentioned[i]? :=
    fun i hi => List.getElem?_take_of_lt hi
  constructor
  · rintro ⟨⟨p, hp, hnameless⟩, hbefore⟩
    have hlimit : position < c.limit.toNat :=
      (List.getElem?_eq_some_iff.1 hp).1.trans_le (List.length_take_le ..)
    refine ⟨hlimit, ⟨p, htake position hlimit ▸ hp, hnameless⟩, fun i hi => ?_⟩
    exact htake i (hi.trans hlimit) ▸ hbefore i hi
  · rintro ⟨hlimit, ⟨p, hp, hnameless⟩, hbefore⟩
    refine ⟨⟨p, (htake position hlimit).trans hp, hnameless⟩, fun i hi => ?_⟩
    rw [htake i (hi.trans hlimit)]
    exact hbefore i hi

theorem fetch_ne_malformed {client : Client} {detail : String} :
    client.fetch web ≠ .error (.malformedRecord detail) := by
  intro h
  obtain hremote | ⟨refusal, hparse⟩ := Client.fetch_eq_error h
  · cases hremote
  · cases hparse

theorem finish_malformed_iff {kept : List Piece} {detail : String} :
    c.finish kept w now files = .error (.malformedRecord detail) ↔
      ∃ position, OfferRule.firstNameless? kept = some position ∧
        Failure.noFilename position = .malformedRecord detail := by
  have hsave : ∀ es, (save c.outputPath (.stamped now es) files >>= fun t =>
      Except.ok (c.report (.stamped now es), t)) ≠ .error (.malformedRecord detail) := by
    intro es h
    unfold save writeFile at h
    split at h <;> cases h
  unfold finish OfferRule.entries
  cases OfferRule.firstNameless? kept with
  | none => exact iff_of_false (hsave _) fun h => by obtain ⟨_, h, -⟩ := h; cases h
  | some position =>
    change (Except.error (Failure.noFilename position) : Except Failure (Report × Tree)) = _ ↔ _
    simp

/-- **A run fails for a malformed record** exactly if one of the first pieces that mention a mood, up
to the limit, has no file name; the first of these is named by its position among such pieces. -/
theorem run_malformed_iff {detail : String} :
    c.run web w now files = .error (.malformedRecord detail) ↔
      ∃ fetched position, c.client.fetch web = .ok fetched ∧
        c.FirstNameless fetched position ∧
        detail = "piece at position " ++ toString position ++ " has no filename" := by
  cases hfetch : c.client.fetch web with
  | error failure =>
    have hrun : c.run web w now files = .error failure := by
      rw [run_eq, snapshot, candidates, Client.fetchByMood, hfetch]
      rfl
    rw [hrun]
    refine iff_of_false (fun h => ?_) fun h => by obtain ⟨_, _, h, -⟩ := h; cases h
    cases h
    exact fetch_ne_malformed hfetch
  | ok fetched =>
    rw [run_eq_finish hfetch, finish_malformed_iff]
    simp only [firstNameless?_kept, Failure.noFilename, Failure.malformedRecord.injEq,
      Except.ok.injEq, exists_and_left, exists_eq_left']
    exact exists_congr fun position => and_congr_right fun _ => eq_comm

/-- **Unselected pieces cannot influence a run.** Of two listings that differ only in pieces that are
not kept, the same comes, a failure or the same report and the same document but for its date. -/
theorem run_edited {web' : Web} {now' : String} {ps qs : List Piece}
    (hps : c.client.fetch web = .ok ps) (hqs : c.client.fetch web' = .ok qs)
    (hedits : Relation.ReflTransGen c.Edit ps qs) :
    c.Agree files now now' (c.run web w now files) (c.run web' w now' files) ∧
    ∀ detail, c.run web w now files = .error (.malformedRecord detail) ↔
      ∃ position, c.FirstNameless ps position ∧
        detail = "piece at position " ++ toString position ++ " has no filename" := by
  refine ⟨?_, fun detail => ?_⟩
  · rw [run_eq_finish hps, run_eq_finish hqs, kept_edits hedits]
    exact agree_finish c _ w now now' files
  · rw [run_malformed_iff]
    constructor
    · rintro ⟨fetched, position, hfetched, h⟩
      rw [hps] at hfetched
      cases hfetched
      exact ⟨position, h⟩
    · rintro ⟨position, h⟩
      exact ⟨ps, position, hps, h⟩

/-- A piece with a file name, and one without. -/
def named (filename feel : String) : Piece :=
  .ofMembers [("feel", .str feel), ("filename", .str filename)]

/-- A piece without a file name. -/
def nameless (feel : String) : Piece := .ofMembers [("feel", .str feel)]

/-- A curator of two calm pieces. -/
def calmPair : Curator := { calm with limit := 2 }

/-- A listing, with a sad piece among the calm ones. -/
def ordered : List Piece := [named "a.mp3" "Calm", named "b" "sad", named "c" "calm", named "d" "CALM"]

/-- The same calm pair, with a nameless piece before it and another one after it. -/
def disordered : List Piece := [nameless "sad", named "a.mp3" "Calm", named "c" "calm", nameless "calm"]

theorem edits_disordered : Relation.ReflTransGen calmPair.Edit ordered disordered := by
  have hsad : ∀ p ∈ [named "b" "sad", nameless "sad"], ¬ p.Mentions calmPair.moods := by decide
  have hlate : calmPair.limit.toNat ≤
      [nameless "sad", named "a.mp3" "Calm", named "c" "calm"].countP
        fun q => q.Mentions calmPair.moods := by decide
  have hdelete : calmPair.Edit ordered [named "a.mp3" "Calm", named "c" "calm", named "d" "CALM"] :=
    @Edit.deleteUnmentioned _ [named "a.mp3" "Calm"] _ _ (hsad _ (by simp))
  have hinsert : calmPair.Edit [named "a.mp3" "Calm", named "c" "calm", named "d" "CALM"]
      [nameless "sad", named "a.mp3" "Calm", named "c" "calm", named "d" "CALM"] :=
    @Edit.insertUnmentioned _ [] _ _ (hsad _ (by simp))
  have halter : calmPair.Edit
      [nameless "sad", named "a.mp3" "Calm", named "c" "calm", named "d" "CALM"] disordered :=
    @Edit.alterLate _ _ [] _ _ hlate
  exact ((Relation.ReflTransGen.single hdelete).tail hinsert).tail halter

/-- What comes of a request for a written listing. -/
def served (ps : List Piece) : Exchange := .answered 200 (Text.octetsOf (Piece.listing .compact ps)) true

theorem run_edited_disordered :
    calmPair.client.fetch (served ordered) = .ok ordered ∧
      calmPair.client.fetch (served disordered) = .ok disordered ∧
      calmPair.Agree .empty "then" "now" (calmPair.run (served ordered) (.cycle [7]) "then" .empty)
        (calmPair.run (served disordered) (.cycle [7]) "now" .empty) := by
  have hordered : calmPair.client.fetch (served ordered) = .ok ordered :=
    Client.fetch_written (Client.address_plain _) rfl (Text.ascii_of_all (by decide)) (by decide)
      (by decide)
  have hdisordered : calmPair.client.fetch (served disordered) = .ok disordered :=
    Client.fetch_written (Client.address_plain _) rfl (Text.ascii_of_all (by decide)) (by decide)
      (by decide)
  exact ⟨hordered, hdisordered, (run_edited hordered hdisordered edits_disordered).1⟩

end Curator

end MusicCatalog
