import MusicCatalog.Curator

/-!
# Sessions

In a session settings are changed, catalogs are made and snapshots are saved, one after another.
Every action begins with the settings and the files that the actions before it have left, whether
these have succeeded or failed.

* `Session`, `Action`: settings and files, and what can be done with them;
* `Effect`: a computation that may change a session, and may fail after it has;
* `Effect.configure`, `Effect.writeFile`, `Effect.makeCatalog`: what actions are made of;
* **`Session.step`**, `Session.after`: what an action, or several of them, make of a session.
-/

namespace MusicCatalog

open Files

/-- A curator at work on some files. -/
structure Session where
  curator : Curator
  files : Tree

/-- One action of a session, with all that comes from outside. -/
inductive Action where
  | setMoods (moods : List String)
  | setLimit (limit : UInt64)
  | setFreeSlots (slots : UInt64)
  | setSelection (selection : Selection)
  | setOutputPath (path : String)
  /-- A catalog is made by the settings, and written. -/
  | run (web : Web) (w : Random.Words) (now : String)
  /-- A snapshot from elsewhere is written. -/
  | save (path : String) (snapshot : Snapshot)

/-- A computation on a session. What it has changed before it fails stays changed. -/
abbrev Effect (α : Type) := ExceptT Failure (StateM Session) α

namespace Effect

/-- Changes the settings. -/
def configure (change : Curator → Curator) : Effect (Option Report) := do
  modify fun s => { s with curator := change s.curator }
  return none

/-- Writes a file. -/
def writeFile (path text : String) : Effect Unit := do
  let s ← get
  let files ← MonadExcept.ofExcept (MusicCatalog.writeFile path text s.files)
  set { s with files := files }

/-- Makes a catalog by the settings, and writes it. -/
def makeCatalog (web : Web) (w : Random.Words) (now : String) : Effect Report := do
  let s ← get
  s.curator.make writeFile web w now

end Effect

/-- What an action does. Only a catalog that is made has a report. -/
def Action.perform : Action → Effect (Option Report)
  | setMoods moods => Effect.configure fun c => { c with moods := moods }
  | setLimit limit => Effect.configure fun c => { c with limit := limit }
  | setFreeSlots slots => Effect.configure fun c => { c with rule.freeSlots := slots }
  | setSelection selection => Effect.configure fun c => { c with rule.selection := selection }
  | setOutputPath path => Effect.configure fun c => { c with outputPath := path }
  | run web w now => do return some (← Effect.makeCatalog web w now)
  | save path snapshot => do
    Effect.writeFile path snapshot.render
    return none

namespace Session

/-- What an action answers, and the session it leaves. -/
def step (s : Session) (a : Action) : Except Failure (Option Report) × Session := a.perform.run s

/-- The session after some actions. It goes on after those that fail. -/
def after : Session → List Action → Session
  | s, [] => s
  | s, a :: as => after (s.step a).2 as

end Session

end MusicCatalog
