import MusicCatalog.Proofs.Json.Members
import MusicCatalog.Proofs.Mood

/-!
# Lowercase forms are their own

No character of a lowercase form has another lowercase form, neither by itself nor for its
surroundings. So keywords that are lowered once are in lowercase for good, and it makes no difference
whether moods and descriptions are lowered before they are compared.

* `IsLower`: a character that stays as it is, wherever it stands;
* `CaseRun.misses`, `misses_upperRuns`: no run of the table leads into another;
* **`lowercase_lowercase`**: the lowercase form of a text is its own;
* `Piece.lowered`, `Piece.hasMood_lowered`: a piece whose description is in lowercase;
* **`byMood_lowered`**: lowered moods and lowered descriptions select the same.
-/

namespace MusicCatalog.Text

/-! ## Characters -/

/-- The character is its own lowercase form, whatever stands around it. -/
def IsLower (c : Char) : Prop := lowerChar c = [c] ∧ c ≠ 'Σ'

theorem isLower_of_lowerRuns {c : Char} (hascii : c.toNat < 0x80 → c.toLower = c)
    (hdotted : c ≠ '\u0130') (hruns : ∀ r ∈ lowerRuns, r.has c = false) : IsLower c := by
  have hnone : lowerRuns.find? (fun r => r.has c) = none :=
    List.find?_eq_none.2 fun r hr => Bool.eq_false_iff.1 (hruns r hr)
  constructor
  · unfold lowerChar
    split_ifs with h
    · rw [hascii h]
    · rw [hnone]
  · have hsigma : lowerRuns.any (·.has 'Σ') := by decide +kernel
    rintro rfl
    obtain ⟨r, hr, hin⟩ := List.any_eq_true.1 hsigma
    rw [hruns r hr] at hin
    cases hin

/-- The runs of all characters that have a form of another kind: besides those of the table the
capitals of ASCII, and the one capital whose form is two characters. -/
def upperRuns : List CaseRun := ⟨0x41, 0x5a, 1, 32⟩ :: ⟨0x130, 0x130, 1, -199⟩ :: lowerRuns

theorem isLower_of_upperRuns {c : Char} (h : ∀ r ∈ upperRuns, r.has c = false) : IsLower c := by
  obtain ⟨hcapital, hrest⟩ := List.forall_mem_cons.1 h
  obtain ⟨hdotted, hruns⟩ := List.forall_mem_cons.1 hrest
  refine isLower_of_lowerRuns (fun _ => ?_) ?_ hruns
  · have hcase : ¬ (c.val ≥ 'A'.val ∧ c.val ≤ 'Z'.val) := by
      intro hc
      have hlow : 65 ≤ c.toNat := hc.1
      have hhigh : c.toNat ≤ 90 := hc.2
      simp [CaseRun.has, hlow, hhigh, Nat.mod_one] at hcapital
    unfold Char.toLower
    rw [dif_neg hcase]
  · rintro rfl
    exact absurd hdotted (by decide)

/-! ## Runs -/

/-- The code point of the lowercase form of a code point of the run. -/
def CaseRun.shift (r : CaseRun) (n : Nat) : Nat := ((n : Int) + r.distance).toNat

/-- The forms of one run are no characters of another: they come before it, or behind it, or lie
between its characters. -/
def CaseRun.misses (r r' : CaseRun) : Bool :=
  Nat.blt (r.shift r.last) r'.first || Nat.blt r'.last (r.shift r.first) ||
    (r'.step == 2 && (r.step == 2 || r.first == r.last) && Nat.blt 0 (r.shift r.first) &&
      (r.shift r.first + r'.first) % 2 == 1)

/-- No lowercase form of the table has one of another kind itself. -/
theorem misses_upperRuns : lowerRuns.all fun r => upperRuns.all r.misses := by decide +kernel

theorem has_lower_of_misses {r r' : CaseRun} (h : r.misses r') {c : Char} (hc : r.has c)
    (hlower : (r.lower c).toNat = r.shift c.toNat) : r'.has (r.lower c) = false := by
  simp only [CaseRun.has, Bool.and_eq_true, decide_eq_true_eq, beq_iff_eq] at hc
  obtain ⟨⟨hfirst, hlast⟩, hstep⟩ := hc
  rw [Bool.eq_false_iff]
  intro hin
  simp only [CaseRun.has, hlower, Bool.and_eq_true, decide_eq_true_eq, beq_iff_eq] at hin
  obtain ⟨⟨hfirst', hlast'⟩, hstep'⟩ := hin
  simp only [CaseRun.misses, Bool.or_eq_true, Bool.and_eq_true, Nat.blt_eq, beq_iff_eq] at h
  generalize c.toNat = n at hfirst hlast hstep hfirst' hlast' hstep'
  unfold CaseRun.shift at h hfirst' hlast' hstep'
  obtain (hbefore | hbehind) | ⟨⟨⟨htwo, hone⟩, hpos⟩, hparity⟩ := h
  · omega
  · omega
  · -- every second code point is one of the other run, and the forms are the ones between
    rw [htwo] at hstep'
    rcases hone with hone | hone
    · rw [hone] at hstep
      omega
    · omega

theorem isLower_lower {r : CaseRun} (hr : r ∈ lowerRuns) {c : Char} (hc : r.has c) :
    IsLower (r.lower c) := by
  by_cases hvalid : (r.shift c.toNat).isValidChar
  · have hlower : (r.lower c).toNat = r.shift c.toNat := by
      change (Char.ofNat (r.shift c.toNat)).toNat = _
      rw [Char.ofNat, dif_pos hvalid]
      rfl
    refine isLower_of_upperRuns fun r' hr' => has_lower_of_misses ?_ hc hlower
    exact List.all_eq_true.1 (List.all_eq_true.1 misses_upperRuns r hr) r' hr'
  · have hnone : r.lower c = Char.ofNat 0 := by
      change Char.ofNat (r.shift c.toNat) = _
      rw [Char.ofNat, dif_neg hvalid]
      rfl
    rw [hnone]
    exact ⟨by decide +kernel, by decide⟩

theorem isLower_toLower : ∀ n < 0x80, IsLower (Char.ofNat n).toLower := by
  unfold IsLower
  decide +kernel

theorem isLower_of_mem_lowerChar {c d : Char} (hd : d ∈ lowerChar c) : IsLower d := by
  unfold lowerChar at hd
  split_ifs at hd with hascii hi
  · rw [List.mem_singleton.1 hd, ← Char.ofNat_toNat c]
    exact isLower_toLower c.toNat hascii
  · obtain rfl | rfl : d = 'i' ∨ d = '\u0307' := by simpa using hd
    · exact ⟨by decide +kernel, by decide⟩
    · exact ⟨by decide +kernel, by decide⟩
  · cases hfind : lowerRuns.find? (fun r => r.has c) with
    | some r =>
      rw [hfind] at hd
      rw [List.mem_singleton.1 hd]
      have hr : r.has c := by simpa using List.find?_some hfind
      exact isLower_lower (List.mem_of_find?_eq_some hfind) hr
    | none =>
      rw [hfind] at hd
      rw [List.mem_singleton.1 hd]
      refine isLower_of_lowerRuns (fun h => absurd h hascii) hi fun r hr => ?_
      exact Bool.eq_false_iff.2 (List.find?_eq_none.1 hfind r hr)

/-! ## Texts -/

theorem isLower_of_mem_lowerAfter {before cs : List Char} {d : Char} (hd : d ∈ lowerAfter before cs) :
    IsLower d := by
  induction cs generalizing before with
  | nil => cases hd
  | cons c r ih =>
    rw [lowerAfter] at hd
    rcases List.mem_append.1 hd with hd | hd
    · split_ifs at hd
      · rw [List.mem_singleton.1 hd]
        exact ⟨by decide +kernel, by decide⟩
      · rw [List.mem_singleton.1 hd]
        exact ⟨by decide +kernel, by decide⟩
      · exact isLower_of_mem_lowerChar hd
    · exact ih hd

/-- Characters that are lowercase already stay as they are. -/
theorem lowerAfter_of_isLower {before cs : List Char} (h : ∀ c ∈ cs, IsLower c) :
    lowerAfter before cs = cs := by
  induction cs generalizing before with
  | nil => rfl
  | cons c r ih =>
    obtain ⟨⟨hlower, hsigma⟩, hr⟩ := List.forall_mem_cons.1 h
    rw [lowerAfter, if_neg hsigma, hlower, ih hr]
    rfl

theorem lowerList_lowerList (cs : List Char) : lowerList (lowerList cs) = lowerList cs :=
  lowerAfter_of_isLower fun _ hc => isLower_of_mem_lowerAfter hc

/-- **The lowercase form of a text is its own.** -/
theorem lowercase_lowercase (s : String) : lowercase (lowercase s) = lowercase s := by
  rw [lowercase, toList_lowercase, lowerList_lowerList, lowercase]

end MusicCatalog.Text

namespace MusicCatalog

open Json Text

/-! ## Descriptions -/

namespace Piece

/-- The value of a field, in lowercase if it is a description. -/
def lowerFeel (key : String) : Value → Value
  | .str s => .str (if key = "feel" then lowercase s else s)
  | v => v

theorem isCanonical_lowerFeel (key : String) {v : Value} (hv : v.IsCanonical) :
    (lowerFeel key v).IsCanonical := by
  cases v with
  | str => trivial
  | _ => exact hv

/-- The piece with its description in lowercase, if that is a string. -/
def lowered (p : Piece) : Piece where
  fields := p.fields.map fun m => (m.1, lowerFeel m.1 m.2)
  canonical := p.canonical.map_values fun key _ hv => isCanonical_lowerFeel key hv

variable (p : Piece)

theorem get?_lowered (key : String) : p.lowered.get? key = (p.get? key).map (lowerFeel key) :=
  lookup_map_values lowerFeel p.fields key

theorem feel_lowered : p.lowered.feel = lowercase p.feel := by
  rw [feel, feel, get?_lowered]
  cases p.get? "feel" with
  | none => rfl
  | some v => cases v <;> rfl

/-- For the search it makes no difference that a description is in lowercase already. -/
theorem hasMood_lowered (keywords : List String) :
    p.lowered.hasMood keywords = p.hasMood keywords := by
  rw [hasMood, hasMood, feel_lowered, toList_lowercase, lowerList_lowerList]

end Piece

/-! ## Moods -/

/-- The pieces that have one of the moods, with their places in the listing. -/
def keptAt (moods : List String) (pieces : List Piece) : List (Piece × Nat) :=
  pieces.zipIdx.filter fun x => x.1.hasMood (moods.map lowercase)

theorem map_fst_keptAt (moods : List String) (pieces : List Piece) :
    (keptAt moods pieces).map Prod.fst = byMood moods pieces := by
  have hfst : pieces.zipIdx.map Prod.fst = pieces := List.zipIdx_map_fst 0 pieces
  rw [byMood, ← hfst, List.filter_map, hfst]
  rfl

theorem keptAt_lowered (moods : List String) (pieces : List Piece) :
    keptAt moods (pieces.map .lowered) = (keptAt moods pieces).map (Prod.map .lowered id) := by
  rw [keptAt, keptAt, List.zipIdx_map, List.filter_map]
  simp only [Function.comp_def, Prod.map_fst, Piece.hasMood_lowered]

/-- **Lowering beforehand changes nothing.** The keywords that are searched for are in lowercase for
good, so lowered moods select the same pieces. Lowered descriptions leave every piece that is
selected at its place. -/
theorem byMood_lowered (moods : List String) (pieces : List Piece) :
    byMood moods pieces = pieces.filter (·.hasMood (moods.map lowercase)) ∧
      (moods.map lowercase).map lowercase = moods.map lowercase ∧
      byMood (moods.map lowercase) pieces = byMood moods pieces ∧
      (keptAt moods pieces).map Prod.fst = byMood moods pieces ∧
      keptAt moods (pieces.map .lowered) = (keptAt moods pieces).map (Prod.map .lowered id) := by
  have hfixed : (moods.map lowercase).map lowercase = moods.map lowercase := by
    rw [List.map_map]
    exact List.map_congr_left fun mood _ => lowercase_lowercase mood
  refine ⟨rfl, hfixed, ?_, map_fst_keptAt moods pieces, keptAt_lowered moods pieces⟩
  rw [byMood, hfixed, byMood]

end MusicCatalog
