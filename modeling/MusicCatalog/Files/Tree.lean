import MusicCatalog.Files.Path

/-!
# A tree of files

* `Location`, `Node`: a place in the tree, innermost name first, and what is there;
* **`Tree`**, `Tree.node?`: the tree, and what stands at a location;
* `Tree.writeTarget`, `Tree.write`: replaces the whole text of a file, or does nothing;
* `Tree.read?`: the text of a file;
* `Tree.makeDirectories`: makes a directory and those above it.
-/

namespace MusicCatalog.Files

/-- A place in the tree: the names from it up to the root. -/
abbrev Location := List String

/-- What stands at a location. -/
inductive Node where
  | directory
  | file (text : String)
deriving DecidableEq

/-- A tree of files, with the directory in which relative paths begin. What was added last counts. -/
structure Tree where
  nodes : List (Location × Node)
  workingDirectory : Location

namespace Tree

/-- Only the root. -/
def empty : Tree := ⟨[], []⟩

variable (t : Tree)

/-- What stands at a location. The root is always there. -/
def node? : Location → Option Node
  | [] => some .directory
  | l => t.nodes.lookup l

/-- The tree with something at a location. -/
def put (l : Location) (n : Node) : Tree := { t with nodes := (l, n) :: t.nodes }

/-- Putting something at a location other than the root changes what is there, and nothing else. -/
theorem node?_put {l m : Location} {n : Node} (h : l ≠ []) :
    (t.put l n).node? m = if m = l then some n else t.node? m := by
  cases m with
  | nil => simp [node?, h.symm]
  | cons a m =>
    by_cases hm : a :: m = l
    · simp [node?, put, hm]
    · rw [if_neg hm]
      change ((l, n) :: t.nodes).lookup (a :: m) = t.nodes.lookup (a :: m)
      rw [List.lookup_cons, beq_false_of_ne hm]

/-! ## Following a path -/

/-- Where a path begins. -/
def start (p : Path) : Location := if p.absolute then [] else t.workingDirectory

/-- What a name leads to in a directory. -/
def child (l : Location) (name : String) : Except FileCause (Option Node) :=
  if nameLimit < name.utf8ByteSize then .error .nameTooLong else .ok (t.node? (name :: l))

/-- The directory after one step. Above the root is the root. -/
def enter (l : Location) : Step → Except FileCause Location
  | .stay => .ok l
  | .up => .ok l.tail
  | .down name => do
    match ← t.child l name with
    | none => .error .noSuchEntry
    | some .directory => .ok (name :: l)
    | some (.file _) => .error .notDirectory

/-- The directory after all steps. -/
def walk (l : Location) : List Step → Except FileCause Location
  | [] => .ok l
  | s :: ss => do walk (← t.enter l s) ss

/-! ## Files -/

/-- Where a file would be written: in a directory that exists, under a name that is no directory. -/
def writeTarget (text : String) : Except FileCause Location := do
  let p ← Path.ofText text
  match p.steps.getLast? with
  | none => .error .isDirectory
  | some last =>
    let l ← t.walk (t.start p) p.steps.dropLast
    match last with
    | .stay | .up => .error .isDirectory
    | .down name =>
      if p.slashed then .error .isDirectory
      else
        match ← t.child l name with
        | some .directory => .error .isDirectory
        | some (.file _) | none => .ok (name :: l)

/-- Writes a file: its whole text is replaced. -/
def write (path text : String) : Except FileCause Tree := do
  .ok (t.put (← t.writeTarget path) (.file text))

/-- The text of a file, if there is one. -/
def read? (path : String) : Option String := do
  let p ← (Path.ofText path).toOption
  let last ← p.steps.getLast?
  let l ← (t.walk (t.start p) p.steps.dropLast).toOption
  match last with
  | .stay | .up => none
  | .down name =>
    if p.slashed then none
    else
      match (t.child l name).toOption with
      | some (some (.file text)) => some text
      | _ => none

/-! ## Directories -/

/-- Makes the directories along the steps that are missing, and says whether all are there then. A
last directory is not made if only dots stand behind it. -/
def makeAlong (t : Tree) (l : Location) : List Step → Bool × Tree
  | [] => (true, t)
  | .stay :: ss => t.makeAlong l ss
  | .up :: ss => t.makeAlong l.tail ss
  | .down name :: ss =>
    match t.child l name with
    | .error _ => (false, t)
    | .ok (some .directory) => t.makeAlong (name :: l) ss
    | .ok (some (.file _)) => (false, t)
    | .ok none =>
      if ss ≠ [] ∧ ss.all (· == .stay) then (false, t)
      else (t.put (name :: l) .directory).makeAlong (name :: l) ss

/-- Makes a directory together with those above it, and says whether it is there then. -/
def makeDirectories (path : String) : Bool × Tree :=
  if path.isEmpty then (true, t)
  else
    match Path.ofText path with
    | .error _ => (false, t)
    | .ok p => t.makeAlong (t.start p) p.steps

end Tree

end MusicCatalog.Files
