import MusicCatalog.Proofs.Arguments
import MusicCatalog.Proofs.Session
import MusicCatalog.Proofs.Site

/-!
# A command is a session

A command does what a session does in which a new curator gets the options as its settings and then
makes one catalog.

* `Failure.FromSite`, `failureText_eq_iff`: the failures that come from the site are announced as such;
* `Options.actions`, `Options.exists_curator`: the settings, for which there always is a curator;
* `Outcome.Tells`: what a command leaves and says of a session's run;
* **`perform_refines`**: every command whose arguments are accepted.
-/

namespace MusicCatalog

open Files

/-! ## Failures -/

/-- No complete response came from the site, or one that is no success. -/
inductive Failure.FromSite : Failure → Prop
  | transport (cause : TransportCause) : FromSite (.transport cause)
  | response (status : Nat) (url : String) : FromSite (.response status url)

theorem Failure.isRemote_iff {f : Failure} : f.isRemote ↔ f.FromSite := by
  constructor
  · intro h
    cases f with
    | transport cause => exact .transport cause
    | response status url => exact .response status url
    | _ => cases h
  · rintro (_ | _) <;> rfl

namespace CommandLine

variable {arguments : List String} {o : Options}

/-- The two announcements begin with different letters. -/
theorem announcements_ne (text text' : String) :
    "Error accessing the API: " ++ text ≠ "An error occurred: " ++ text' := by
  intro h
  have hfirst := congrArg (fun t => t.toList.head?) h
  simp [String.toList_append] at hfirst

theorem failureText_eq_iff (f : Failure) :
    (failureText f = "Error accessing the API: " ++ f.message ++ "\n" ↔ f.FromSite) ∧
      (failureText f = "An error occurred: " ++ f.message ++ "\n" ↔ ¬ f.FromSite) := by
  have hne := announcements_ne (f.message ++ "\n") (f.message ++ "\n")
  simp only [← String.append_assoc] at hne
  by_cases h : f.isRemote
  · have htext : failureText f = "Error accessing the API: " ++ f.message ++ "\n" := if_pos h
    have hsite := Failure.isRemote_iff.1 h
    exact ⟨iff_of_true htext hsite, iff_of_false (htext ▸ hne) (not_not_intro hsite)⟩
  · have htext : failureText f = "An error occurred: " ++ f.message ++ "\n" := if_neg h
    have hsite := fun hsite => h (Failure.isRemote_iff.2 hsite)
    exact ⟨iff_of_false (htext ▸ hne.symm) hsite, iff_of_true htext hsite⟩

/-! ## Settings -/

/-- The changes that give a new curator its settings. -/
def Options.actions (o : Options) : List Action :=
  [.setMoods o.moods, .setLimit o.limit, .setFreeSlots o.free, .setOutputPath o.output] ++
    if o.matchByEquality then [.setSelection .equality] else []

/-- No argument changes the name of the client, so that there is a curator for all options. -/
theorem Options.exists_curator (o : Options) (files : Tree) :
    ∃ c d, Curator.ofSite o.site = .ok c ∧ o.curator = .ok d ∧ d.outputPath = o.output ∧
      Session.after ⟨c, files⟩ o.actions = ⟨d, files⟩ := by
  have hagent : isHeaderText o.site.userAgent := by
    change isHeaderText Site.standard.userAgent
    decide +kernel
  have hclient : Client.ofSite o.site = .ok ⟨o.site, hagent⟩ := dif_pos hagent
  have hcurator : Curator.ofSite o.site = .ok ⟨⟨o.site, hagent⟩, Curator.standardMoods,
      Curator.standardLimit, .standard, Curator.standardPath⟩ := by
    rw [Curator.ofSite, hclient]
    rfl
  rw [Options.curator, hcurator, Options.actions]
  refine ⟨_, _, rfl, rfl, rfl, ?_⟩
  cases o.matchByEquality <;> rfl

/-! ## Outcomes -/

/-- What a command leaves and says of the run of a session, whose file is at `path`. -/
structure Outcome.Tells (out : Outcome) (path : String)
    (run : Except Failure (Option Report) × Session) : Prop where
  files : out.files = run.2.files
  exitCode : out.exitCode = 0 ↔ ∃ report, run.1 = .ok (some report)
  success : ∀ report, run.1 = .ok (some report) → ∃ s : Snapshot, ∃ total free pro,
    out.files.read? path = some s.render ∧ s.pieces.length = total ∧
      (s.pieces.countP fun e => e.tier = .free) = free ∧
      (s.pieces.countP fun e => e.tier = .pro) = pro ∧ total = free + pro ∧
      out.stdout = "Generated catalog with " ++ toString total ++ " pieces\n" ++
        "- Free access: " ++ toString free ++ " pieces\n" ++
        "- Pro access: " ++ toString pro ++ " pieces\n" ++ "Saved to " ++ path ++ "\n"
  failure : ∀ f, run.1 = .error f →
    (out.stdout = "Error accessing the API: " ++ f.message ++ "\n" ↔ f.FromSite) ∧
      (out.stdout = "An error occurred: " ++ f.message ++ "\n" ↔ ¬ f.FromSite)

variable {web : Web} {w : Random.Words} {now : String} {files : Tree}

/-- A command does what a run does, if its arguments are accepted and there is a curator. -/
theorem perform_eq (arguments : List String) (web : Web) (w : Random.Words) (now : String)
    (files : Tree) :
    perform arguments web w now files =
      match Options.ofArguments arguments with
      | .error stop => ⟨"", stop.exitCode, files⟩
      | .ok o =>
        match o.curator with
        | .error failure => ⟨localFailureText failure, 1, files⟩
        | .ok c =>
          match c.run web w now files with
          | .ok (report, files) => ⟨reportText report, 0, files⟩
          | .error failure => ⟨failureText failure, 1, files⟩ := by
  unfold perform carryOut
  cases Options.ofArguments arguments with
  | error stop => rfl
  | ok o =>
    dsimp only
    cases o.curator with
    | error failure => rfl
    | ok c =>
      have hmake : (makeIn web w now c).run files =
          match c.run web w now files with
          | .ok (report, files) => (.ok report, files)
          | .error failure => (.error failure, files) := rfl
      dsimp only
      rw [StateT.run_bind, hmake]
      cases c.run web w now files <;> rfl

theorem tells_perform {c : Curator} (h : Options.ofArguments arguments = .ok o)
    (hc : o.curator = .ok c) :
    (perform arguments web w now files).Tells c.outputPath
      (Session.step ⟨c, files⟩ (.run web w now)) := by
  rw [Session.step_run]
  simp only [perform_eq, h, hc]
  cases hrun : c.run web w now files with
  | error failure =>
    refine ⟨rfl, iff_of_false (show (1 : UInt8) ≠ 0 by decide) ?_, ?_, ?_⟩
    · rintro ⟨_, ⟨⟩⟩
    · rintro _ ⟨⟩
    · rintro _ ⟨⟩
      exact failureText_eq_iff failure
  | ok p =>
    obtain ⟨report, files'⟩ := p
    refine ⟨rfl, iff_of_true rfl ⟨report, rfl⟩, ?_, ?_⟩
    · rintro _ ⟨⟩
      obtain ⟨s, hs, hwrite, rfl⟩ := Curator.run_eq_ok.1 hrun
      obtain ⟨fetched, es, -, -, rfl⟩ := Curator.snapshot_eq_ok.1 hs
      refine ⟨_, _, _, _, Tree.read?_of_write hwrite, rfl, rfl, rfl, Entry.length_eq_tiers es, ?_⟩
      rw [Curator.report_stamped]
      rfl
    · rintro _ ⟨⟩

/-- **A command is a session.** Accepted arguments say which options are meant, and a new curator of the
trimmed bases gets these as its settings. There is always such a curator, so that a command never ends
before its run. The files are those that the run leaves, the exit code is zero exactly if it succeeds,
and what is said are the counts of the file or the failure, as one of the site or another. -/
theorem perform_refines (h : Options.ofArguments arguments = .ok o) (web : Web)
    (w : Random.Words) (now : String) (files : Tree) :
    (∃ words, Spells none arguments words ∧ o.Chosen words) ∧
      ∃ base downloads c, IsTrimmed o.baseUrl base ∧ IsTrimmed o.downloadBase downloads ∧
        Curator.ofSite ⟨base, downloads, "moodcat/0.1.0"⟩ = .ok c ∧
        o.curator = .ok (Session.after ⟨c, files⟩ o.actions).curator ∧
        (perform arguments web w now files).Tells o.output
          ((Session.after ⟨c, files⟩ o.actions).step (.run web w now)) := by
  refine ⟨Options.ofArguments_eq_ok.1 h, trimSlashes o.baseUrl, trimSlashes o.downloadBase, ?_⟩
  obtain ⟨c, d, hsite, hcurator, hpath, hsession⟩ := o.exists_curator files
  refine ⟨c, isTrimmed_trimSlashes _, isTrimmed_trimSlashes _, hsite, ?_⟩
  rw [hsession, ← hpath]
  exact ⟨hcurator, tells_perform h hcurator⟩

/-- A command for a catalog of calm pieces, one of which is free. -/
def calmCommand : List String :=
  ["-mcalm", "--free=1", "--base-url", "http://pages/", "-o", "/catalog", "--"]

/-- What comes of it, for a site that lists calm pieces among others. -/
def calmOutcome : Outcome := perform calmCommand Curator.mixedExchange (.cycle [7]) "now" .empty

theorem perform_refines_calm :
    ∃ o : Options, Options.ofArguments calmCommand = .ok o ∧ o.output = "/catalog" ∧
      (∃ words, Spells none calmCommand words ∧ o.Chosen words) ∧
      calmOutcome.exitCode = 0 ∧ ∃ s : Snapshot, ∃ free pro,
        calmOutcome.files.read? "/catalog" = some s.render ∧ s.pieces.length = free + pro ∧
        calmOutcome.stdout = "Generated catalog with " ++ toString s.pieces.length ++ " pieces\n" ++
          "- Free access: " ++ toString free ++ " pieces\n" ++
          "- Pro access: " ++ toString pro ++ " pieces\n" ++ "Saved to " ++ "/catalog" ++ "\n" := by
  have hoptions : (Options.ofArguments calmCommand).toOption.map Options.output =
      some "/catalog" := by decide +kernel
  have hcode : calmOutcome.exitCode = 0 := by decide +kernel
  cases ho : Options.ofArguments calmCommand with
  | error stop =>
    rw [ho] at hoptions
    cases hoptions
  | ok o =>
    rw [ho] at hoptions
    have hpath : o.output = "/catalog" := Option.some.inj hoptions
    obtain ⟨hwords, base, downloads, c, -, -, -, -, htells⟩ :=
      perform_refines ho Curator.mixedExchange (.cycle [7]) "now" .empty
    obtain ⟨report, hreport⟩ := htells.exitCode.1 hcode
    obtain ⟨s, total, free, pro, hread, rfl, -, -, htotal, hstdout⟩ := htells.success report hreport
    rw [hpath] at hread hstdout
    exact ⟨o, rfl, hpath, hwords, hcode, s, free, pro, hread, htotal, hstdout⟩

end CommandLine

end MusicCatalog
