import Mathlib.Tactic.SplitIfs
import MusicCatalog.Files.Tree
import MusicCatalog.Proofs.Except

/-!
# Writing one file

* `Tree.SameDirectories`: two trees in which paths lead to the same places;
* **`Tree.writeTarget_eq_ok`**: what it takes to be the place where a file would be written;
* `Tree.read?_of_writeTarget`: what is read is what stands there;
* **`Tree.write_eq_ok`**: a write changes that place, nothing else, and no path.
-/

namespace MusicCatalog.Files.Tree

variable {t t' : Tree}

/-! ## Following paths -/

/-- Paths begin at the same place in both trees and meet the same directories. -/
structure SameDirectories (t t' : Tree) : Prop where
  start : t'.workingDirectory = t.workingDirectory
  directory : ∀ l, t'.node? l = some .directory ↔ t.node? l = some .directory

namespace SameDirectories

theorem refl (t : Tree) : SameDirectories t t := ⟨rfl, fun _ => Iff.rfl⟩

theorem trans {t'' : Tree} (h : SameDirectories t t') (h' : SameDirectories t' t'') :
    SameDirectories t t'' :=
  ⟨h'.start.trans h.start, fun l => (h'.directory l).trans (h.directory l)⟩

/-- A file may be put wherever there is no directory. -/
theorem put {l : Location} (hroot : l ≠ []) (hl : t.node? l ≠ some .directory) (text : String) :
    SameDirectories t (t.put l (.file text)) := by
  refine ⟨rfl, fun m => ?_⟩
  rw [t.node?_put hroot]
  by_cases hm : m = l
  · rw [if_pos hm, hm]
    exact iff_of_false (fun h => by cases h) hl
  · rw [if_neg hm]

end SameDirectories

theorem child_eq_ok {l : Location} {name : String} {node : Option Node} :
    t.child l name = .ok node ↔ name.utf8ByteSize ≤ nameLimit ∧ t.node? (name :: l) = node := by
  rw [child]
  split_ifs with hlong
  · have hnot : ¬ name.utf8ByteSize ≤ nameLimit := Nat.not_le.2 hlong
    simp [hnot]
  · have hle : name.utf8ByteSize ≤ nameLimit := Nat.not_lt.1 hlong
    simp [hle]

theorem enter_down_eq_ok {l m : Location} {name : String} :
    t.enter l (.down name) = .ok m ↔
      name.utf8ByteSize ≤ nameLimit ∧ t.node? (name :: l) = some .directory ∧ m = name :: l := by
  simp only [enter, bind_eq_ok, child_eq_ok]
  constructor
  · rintro ⟨node, ⟨hname, hnode⟩, hm⟩
    rcases node with _ | _ | text
    · cases hm
    · cases hm
      exact ⟨hname, hnode, rfl⟩
    · cases hm
  · rintro ⟨hname, hnode, rfl⟩
    exact ⟨_, ⟨hname, hnode⟩, rfl⟩

theorem SameDirectories.enter (h : SameDirectories t t') {l m : Location} {s : Step} :
    t'.enter l s = .ok m ↔ t.enter l s = .ok m := by
  cases s with
  | stay => rfl
  | up => rfl
  | down name => rw [enter_down_eq_ok, enter_down_eq_ok, h.directory]

theorem SameDirectories.walk (h : SameDirectories t t') {l m : Location} {ss : List Step} :
    t'.walk l ss = .ok m ↔ t.walk l ss = .ok m := by
  induction ss generalizing l with
  | nil => rfl
  | cons s ss ih => simp only [Tree.walk, bind_eq_ok, h.enter, ih]

/-! ## The place of a file -/

/-- **A file would be written** where a path ends with a name, in a directory, that is not the name
of a directory itself. -/
theorem writeTarget_eq_ok {text : String} {target : Location} :
    t.writeTarget text = .ok target ↔
      ∃ p l name, Path.ofText text = .ok p ∧ p.steps.getLast? = some (.down name) ∧
        p.slashed = false ∧ t.walk (t.start p) p.steps.dropLast = .ok l ∧
        name.utf8ByteSize ≤ nameLimit ∧ t.node? (name :: l) ≠ some .directory ∧
        target = name :: l := by
  simp only [writeTarget, bind_eq_ok]
  constructor
  · rintro ⟨p, hp, h⟩
    split at h
    · cases h
    · next last hlast =>
      obtain ⟨l, hl, h⟩ := bind_eq_ok.1 h
      cases last with
      | stay => cases h
      | up => cases h
      | down name =>
        dsimp only at h
        split_ifs at h with hslash
        obtain ⟨node, hchild, h⟩ := bind_eq_ok.1 h
        obtain ⟨hname, rfl⟩ := child_eq_ok.1 hchild
        refine ⟨p, l, name, hp, hlast, Bool.eq_false_iff.2 hslash, hl, hname, ?_⟩
        rcases hnode : t.node? (name :: l) with _ | _ | text <;> rw [hnode] at h <;> cases h
        · exact ⟨nofun, rfl⟩
        · exact ⟨nofun, rfl⟩
  · rintro ⟨p, l, name, hp, hlast, hslash, hl, hname, hnode, rfl⟩
    have hchild : t.child l name = .ok (t.node? (name :: l)) := child_eq_ok.2 ⟨hname, rfl⟩
    refine ⟨p, hp, ?_⟩
    simp only [hlast, bind_eq_ok]
    refine ⟨l, hl, ?_⟩
    simp only [hslash, Bool.false_eq_true, ↓reduceIte, hchild]
    rcases hdirectory : t.node? (name :: l) with _ | _ | text
    · rfl
    · exact absurd hdirectory hnode
    · rfl

theorem SameDirectories.start_eq (h : SameDirectories t t') (p : Path) : t'.start p = t.start p := by
  rw [Tree.start, Tree.start, h.start]

/-- A path leads to the same place if the directories are the same. -/
theorem SameDirectories.writeTarget (h : SameDirectories t t') {text : String} {l : Location} :
    t'.writeTarget text = .ok l ↔ t.writeTarget text = .ok l := by
  simp only [writeTarget_eq_ok, h.start_eq, h.walk, ne_eq, h.directory]

theorem ne_nil_of_writeTarget {text : String} {l : Location} (h : t.writeTarget text = .ok l) :
    l ≠ [] := by
  obtain ⟨p, l, name, -, -, -, -, -, -, rfl⟩ := writeTarget_eq_ok.1 h
  exact List.cons_ne_nil name l

theorem node?_ne_directory {text : String} {l : Location} (h : t.writeTarget text = .ok l) :
    t.node? l ≠ some .directory := by
  obtain ⟨p, l, name, -, -, -, -, -, hnode, rfl⟩ := writeTarget_eq_ok.1 h
  exact hnode

/-- What is read from a path is the text at the place where it would be written. -/
theorem read?_of_writeTarget {path : String} {l : Location} (h : t.writeTarget path = .ok l) :
    t.read? path =
      match t.node? l with
      | some (.file text) => some text
      | _ => none := by
  obtain ⟨p, l, name, hp, hlast, hslash, hwalk, hname, -, rfl⟩ := writeTarget_eq_ok.1 h
  have hchild : t.child l name = .ok (t.node? (name :: l)) := child_eq_ok.2 ⟨hname, rfl⟩
  rw [read?, hp]
  change (p.steps.getLast? >>= _) = _
  rw [hlast]
  change ((t.walk (t.start p) p.steps.dropLast).toOption >>= _) = _
  rw [hwalk]
  change (if p.slashed then none else _) = _
  rw [hslash, hchild]
  rcases t.node? (name :: l) with _ | _ | text <;> rfl

/-! ## Writing -/

/-- **A write** puts the whole text at its place. -/
theorem write_eq_ok {path text : String} :
    t.write path text = .ok t' ↔
      ∃ l, t.writeTarget path = .ok l ∧ t' = t.put l (.file text) := by
  simp only [write, bind_eq_ok, Except.ok.injEq]
  exact exists_congr fun l => and_congr_right fun _ => eq_comm

variable {path text : String} {l : Location}

theorem sameDirectories_put (h : t.writeTarget path = .ok l) (text : String) :
    SameDirectories t (t.put l (.file text)) :=
  .put (ne_nil_of_writeTarget h) (node?_ne_directory h) text

/-- What has been written is read again. -/
theorem read?_of_write (h : t.write path text = .ok t') : t'.read? path = some text := by
  obtain ⟨l, hl, rfl⟩ := write_eq_ok.1 h
  have htarget := (sameDirectories_put hl text).writeTarget.2 hl
  rw [read?_of_writeTarget htarget, t.node?_put (ne_nil_of_writeTarget hl), if_pos rfl]

end MusicCatalog.Files.Tree
