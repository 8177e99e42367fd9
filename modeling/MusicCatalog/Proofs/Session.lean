import MusicCatalog.Proofs.Curator
import MusicCatalog.Session

/-!
# What a session leaves in its files

* `Effect.makeCatalog_run`: making a catalog inside a session is a run;
* `Session.step_run`, **`Session.outcome_step`**: what an action answers, and what it leaves;
* `Session.step_error`, **`Session.node?_step`**: what one action does to the files;
* `Session.log`: all that has been written, in the order of the actions;
* **`Session.after_history`**: the files after any actions.
-/

namespace MusicCatalog

open Files

/-! ## Effects -/

namespace Effect

/-- A file is written as it is outside a session, and no file is touched by a write that fails. -/
theorem writeFile_run (path text : String) (s : Session) :
    (writeFile path text).run s =
      match MusicCatalog.writeFile path text s.files with
      | .ok files => (.ok (), { s with files := files })
      | .error failure => (.error failure, s) := by
  unfold writeFile
  rw [bind_run_ok (get_run s)]
  cases hwrite : MusicCatalog.writeFile path text s.files with
  | error failure => exact bind_run_error (ofExcept_run _ s) _
  | ok files =>
    rw [bind_run_ok (ofExcept_run _ s)]
    rfl

/-- **A catalog in a session** is made by a run, and a run that fails changes nothing. -/
theorem makeCatalog_run (web : Web) (w : Random.Words) (now : String) (s : Session) :
    (makeCatalog web w now).run s =
      match s.curator.run web w now s.files with
      | .ok (report, files) => (.ok report, { s with files := files })
      | .error failure => (.error failure, s) := by
  unfold makeCatalog Curator.make
  rw [bind_run_ok (get_run s), Curator.run_eq]
  cases s.curator.snapshot web w now with
  | error failure => exact bind_run_error (ofExcept_run _ s) _
  | ok snapshot =>
    rw [bind_run_ok (ofExcept_run _ s)]
    have hwrite := writeFile_run s.curator.outputPath snapshot.render s
    change _ = match (MusicCatalog.writeFile s.curator.outputPath snapshot.render s.files >>=
        fun files => Except.ok (s.curator.report snapshot, files) :
          Except Failure (Report × Tree)) with
      | .ok (report, files) => (Except.ok report, { s with files := files })
      | .error failure => (.error failure, s)
    cases hsave : MusicCatalog.writeFile s.curator.outputPath snapshot.render s.files with
    | error failure =>
      rw [hsave] at hwrite
      exact bind_run_error hwrite _
    | ok files =>
      rw [hsave] at hwrite
      rw [bind_run_ok hwrite]
      rfl

end Effect

/-! ## One action -/

/-- The path that an action writes to, if it writes. -/
def Action.path? (c : Curator) : Action → Option String
  | run _ _ _ => some c.outputPath
  | save path _ => some path
  | _ => none

/-- The snapshot that an action writes, if it comes to that. -/
def Action.snapshot? (c : Curator) : Action → Option Snapshot
  | run web w now => (c.snapshot web w now).toOption
  | save _ snapshot => some snapshot
  | _ => none

namespace Session

variable (s : Session) (a : Action)

/-- What an action can answer, and what it then leaves of a session. -/
inductive Outcome : Except Failure (Option Report) × Session → Prop
  | failed (failure : Failure) : Outcome (.error failure, s)
  | configured (c : Curator) (hpath : a.path? s.curator = none) :
    Outcome (.ok none, { s with curator := c })
  | written (answer : Option Report) {path : String} {snapshot : Snapshot} {l : Location}
    (hpath : a.path? s.curator = some path) (hsnapshot : a.snapshot? s.curator = some snapshot)
    (hl : s.files.writeTarget path = .ok l) :
    Outcome (.ok answer, { s with files := s.files.put l (.file snapshot.render) })

theorem step_run (web : Web) (w : Random.Words) (now : String) :
    s.step (.run web w now) =
      match s.curator.run web w now s.files with
      | .ok (report, files) => (.ok (some report), { s with files := files })
      | .error failure => (.error failure, s) := by
  have hmake := Effect.makeCatalog_run web w now s
  rw [step, Action.perform]
  cases hrun : s.curator.run web w now s.files with
  | error failure =>
    rw [hrun] at hmake
    exact bind_run_error hmake _
  | ok p =>
    rw [hrun] at hmake
    exact bind_run_ok hmake _

theorem outcome_run (web : Web) (w : Random.Words) (now : String) :
    Outcome s (.run web w now) (s.step (.run web w now)) := by
  rw [step_run]
  cases hrun : s.curator.run web w now s.files with
  | error failure => exact .failed failure
  | ok p =>
    obtain ⟨report, files'⟩ := p
    obtain ⟨snapshot, hsnapshot, hwrite, -⟩ := Curator.run_eq_ok.1 hrun
    obtain ⟨l, hl, rfl⟩ := Tree.write_eq_ok.1 hwrite
    exact .written (some report) rfl (congrArg Except.toOption hsnapshot) hl

theorem outcome_save (path : String) (snapshot : Snapshot) :
    Outcome s (.save path snapshot) (s.step (.save path snapshot)) := by
  have hwrite := Effect.writeFile_run path snapshot.render s
  cases hsave : writeFile path snapshot.render s.files with
  | error failure =>
    rw [hsave] at hwrite
    rw [step, Action.perform, bind_run_error hwrite]
    exact .failed failure
  | ok files' =>
    obtain ⟨l, hl, rfl⟩ := Tree.write_eq_ok.1 (Curator.save_eq_ok.1 hsave)
    rw [hsave] at hwrite
    rw [step, Action.perform, bind_run_ok hwrite]
    exact .written none rfl rfl hl

/-- **An action** fails and changes nothing, or changes the settings, or writes one file. -/
theorem outcome_step : Outcome s a (s.step a) := by
  cases a with
  | setMoods moods => exact .configured _ rfl
  | setLimit limit => exact .configured _ rfl
  | setFreeSlots slots => exact .configured _ rfl
  | setSelection selection => exact .configured _ rfl
  | setOutputPath path => exact .configured _ rfl
  | run web w now => exact outcome_run s web w now
  | save path snapshot => exact outcome_save s path snapshot

/-- The place that an action writes, if it succeeds, and the text it writes there. -/
def wrote : Option (Location × String) :=
  match (s.step a).1, a.path? s.curator, a.snapshot? s.curator with
  | .ok _, some path, some snapshot =>
    (s.files.writeTarget path).toOption.map fun l => (l, snapshot.render)
  | _, _, _ => none

variable {s a}

/-- An action that fails leaves the files and the settings as they were. -/
theorem step_error {failure : Failure} (h : (s.step a).1 = .error failure) : (s.step a).2 = s := by
  have hstep := s.outcome_step a
  generalize s.step a = p at h hstep
  cases hstep with
  | failed => rfl
  | configured => cases h
  | written => cases h

/-- An action that succeeds and has a path has written the whole text of its snapshot there. -/
theorem wrote_of_path? {answer : Option Report} {path : String} (h : (s.step a).1 = .ok answer)
    (hpath : a.path? s.curator = some path) :
    ∃ l snapshot, s.files.writeTarget path = .ok l ∧ a.snapshot? s.curator = some snapshot ∧
      s.wrote a = some (l, snapshot.render) := by
  have hstep := s.outcome_step a
  unfold wrote
  generalize s.step a = p at h hstep
  cases hstep with
  | failed => cases h
  | configured c hnone =>
    rw [hnone] at hpath
    cases hpath
  | written answer' hpath' hsnapshot hl =>
    obtain rfl := Option.some.inj (hpath.symm.trans hpath')
    refine ⟨_, _, hl, hsnapshot, ?_⟩
    simp only [hpath, hsnapshot, hl, Except.toOption, Option.map_some]

/-- After an action its text stands at its place, and at all other places what was there before. -/
theorem node?_step (l : Location) :
    (s.step a).2.files.node? l =
      match s.wrote a with
      | some (m, text) => if l = m then some (.file text) else s.files.node? l
      | none => s.files.node? l := by
  have hstep := s.outcome_step a
  unfold wrote
  generalize s.step a = p at hstep
  cases hstep with
  | failed => rfl
  | configured c hnone =>
    simp only [hnone]
  | written answer hpath hsnapshot hl =>
    simp only [hpath, hsnapshot, hl, Except.toOption, Option.map_some]
    exact s.files.node?_put (Tree.ne_nil_of_writeTarget hl)

/-- No action changes where paths lead. -/
theorem sameDirectories_step : Tree.SameDirectories s.files (s.step a).2.files := by
  have hstep := s.outcome_step a
  generalize s.step a = p at hstep
  cases hstep with
  | failed => exact .refl _
  | configured => exact .refl _
  | written answer hpath hsnapshot hl => exact Tree.sameDirectories_put hl _

/-- Neither a run nor a save changes the settings. -/
theorem curator_step {path : String} (hpath : a.path? s.curator = some path) :
    (s.step a).2.curator = s.curator := by
  have hstep := s.outcome_step a
  generalize s.step a = p at hstep
  cases hstep with
  | failed => rfl
  | configured c hnone =>
    rw [hnone] at hpath
    cases hpath
  | written => rfl

variable (s a) in
/-- If the action fails, all files and settings stay as they are. If it succeeds and has a path, the
whole text of its snapshot stands there, all other files stay as they are, and so do the settings. An
action without a path touches no file. -/
structure Confined : Prop where
  failed : ∀ failure, (s.step a).1 = .error failure → (s.step a).2 = s
  written : ∀ answer path, (s.step a).1 = .ok answer → a.path? s.curator = some path →
    ∃ l snapshot, s.files.writeTarget path = .ok l ∧ a.snapshot? s.curator = some snapshot ∧
      s.wrote a = some (l, snapshot.render) ∧
      (s.step a).2.files.read? path = some snapshot.render ∧
      ∀ m, m ≠ l → (s.step a).2.files.node? m = s.files.node? m
  untouched : a.path? s.curator = none → (s.step a).2.files = s.files
  settings : ∀ path, a.path? s.curator = some path → (s.step a).2.curator = s.curator

theorem confined (s : Session) (a : Action) : s.Confined a where
  failed _ := step_error
  settings _ := curator_step
  untouched hnone := by
    have hstep := s.outcome_step a
    generalize s.step a = p at hstep
    cases hstep with
    | failed => rfl
    | configured => rfl
    | written answer hpath =>
      rw [hnone] at hpath
      cases hpath
  written answer path h hpath := by
    obtain ⟨l, snapshot, hl, hsnapshot, hwrote⟩ := wrote_of_path? h hpath
    have hnode : ∀ m, (s.step a).2.files.node? m =
        if m = l then some (.file snapshot.render) else s.files.node? m := by
      intro m
      rw [node?_step, hwrote]
    -- the path still leads to the same place, also in the tree with the new file
    have htarget := (sameDirectories_step (a := a)).writeTarget.2 hl
    refine ⟨l, snapshot, hl, hsnapshot, hwrote, ?_, fun m hm => ?_⟩
    · rw [Tree.read?_of_writeTarget htarget, hnode, if_pos rfl]
    · rw [hnode, if_neg hm]

/-! ## Many actions -/

/-- All that some actions write, and where, in their order. -/
def log : Session → List Action → List (Location × String)
  | _, [] => []
  | s, a :: as => (s.wrote a).toList ++ log (s.step a).2 as

theorem sameDirectories_after (s : Session) (as : List Action) :
    Tree.SameDirectories s.files (s.after as).files := by
  induction as generalizing s with
  | nil => exact .refl _
  | cons a as ih => exact sameDirectories_step.trans (ih _)

/-- What stands at a location after some actions: what was written there last, or what was there. -/
theorem node?_after (s : Session) (as : List Action) (l : Location) :
    (s.after as).files.node? l =
      match (s.log as).reverse.lookup l with
      | some text => some (.file text)
      | none => s.files.node? l := by
  induction as generalizing s with
  | nil => rfl
  | cons a as ih =>
    rw [after, ih, log, List.reverse_append, List.lookup_append]
    -- this action counts only if none of the later ones has written there
    cases (log (s.step a).2 as).reverse.lookup l with
    | some text => rfl
    | none =>
      change (s.step a).2.files.node? l = _
      rw [node?_step, Option.none_or]
      cases s.wrote a with
      | none => rfl
      | some p =>
        obtain ⟨m, text⟩ := p
        change (if l = m then _ else _) = match List.lookup l [(m, text)] with | some _ => _ | none => _
        by_cases hl : l = m
        · rw [if_pos hl, hl, List.lookup_cons_self]
        · rw [if_neg hl, List.lookup_cons, beq_false_of_ne hl]
          rfl

/-- **The files after any actions.** At each location stands the whole text of the snapshot that was
written there last, or what was there at first, and paths to it read just that. Every action,
whatever came before it, is confined to the file at its own path. -/
theorem after_history (s : Session) (as : List Action) :
    (∀ l, (s.after as).files.node? l =
      match (s.log as).reverse.lookup l with
      | some text => some (.file text)
      | none => s.files.node? l) ∧
    (∀ path l, s.files.writeTarget path = .ok l →
      (s.after as).files.read? path = ((s.log as).reverse.lookup l).or (s.files.read? path)) ∧
    ∀ a, (s.after as).Confined a := by
  refine ⟨node?_after s as, fun path l hl => ?_, fun a => confined (s.after as) a⟩
  have htarget := (sameDirectories_after s as).writeTarget.2 hl
  rw [Tree.read?_of_writeTarget htarget, Tree.read?_of_writeTarget hl, node?_after]
  cases (s.log as).reverse.lookup l <;> rfl

/-- A snapshot is saved, one to a directory that is missing, and another in place of the first. -/
def threeSaves : List Action :=
  [.save "/a" (.stamped "first" []), .save "/b/a" (.stamped "second" []),
    .save "/./a" (.stamped "third" [])]

theorem after_threeSaves :
    (after ⟨Curator.calm, .empty⟩ threeSaves).files.read? "/a" =
      some (Snapshot.stamped "third" []).render := by
  have htarget : Tree.empty.writeTarget "/a" = .ok ["a"] := by rfl
  rw [(after_history ⟨Curator.calm, .empty⟩ threeSaves).2.1 "/a" ["a"] htarget]
  have hlog : (log ⟨Curator.calm, .empty⟩ threeSaves).reverse.lookup ["a"] =
      some (Snapshot.stamped "third" []).render := by rfl
  rw [hlog]
  rfl

end Session

end MusicCatalog
