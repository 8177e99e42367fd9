import MusicCatalog.Proofs.Curator
import MusicCatalog.Proofs.Lowercase

/-!
# Pieces that a mood selects

Moods and descriptions are compared in lowercase, so a mood that stands in a description word for
word should select it. It does unless it has a capital sigma that is final in one of the two and not
in the other. Moods in ASCII have no such letters, and for them the search is one for windows of the
description that are equal up to case.

* `mem_byMood`: a piece is selected if some mood and its description match in lowercase;
* **`byMood_verbatim`**, `byMood_phosphorus`: which moods select every description they stand in, and
  one that does not;
* `EqUpToCase`, `Occurs`: windows of a text that equal a mood up to case;
* `Piece.IsFeel`: the description of a piece;
* **`byMood_ascii`**: what moods in ASCII select.
-/

namespace MusicCatalog

open Json Text

theorem Piece.mentions_iff {moods : List String} {p : Piece} :
    p.Mentions moods ↔ ∃ mood ∈ moods, lowerList mood.toList <:+: lowerList p.feel.toList := by
  simp only [Piece.Mentions, toList_lowercase]

theorem mem_byMood {moods : List String} {pieces : List Piece} {p : Piece} :
    p ∈ byMood moods pieces ↔
      p ∈ pieces ∧ ∃ mood ∈ moods, lowerList mood.toList <:+: lowerList p.feel.toList := by
  rw [byMood_eq, List.mem_filter, decide_eq_true_iff, Piece.mentions_iff]

/-! ## Moods word for word -/

/-- A piece with a description. -/
def Piece.feeling (feel : String) : Piece := .ofMembers [("feel", .str feel)]

theorem Piece.feel_feeling (feel : String) : (feeling feel).feel = feel := rfl

/-- **A mood that stands in a description selects the piece** if its capital sigmas end words in the
description just where they do in the mood. Moods that decide this for all their sigmas select every
piece with such a description, and no other moods do. -/
theorem byMood_verbatim (mood : String) :
    (∀ (moods : List String) (pieces : List Piece) (p : Piece) (before after : List Char),
      mood ∈ moods → p ∈ pieces → p.feel.toList = before ++ mood.toList ++ after →
      KeepsSigmas before mood.toList after → p ∈ byMood moods pieces) ∧
    ((∀ (moods : List String) (pieces : List Piece) (p : Piece),
      mood ∈ moods → p ∈ pieces → mood.toList <:+: p.feel.toList → p ∈ byMood moods pieces) ↔
        SigmasDecided mood.toList) := by
  refine ⟨fun moods pieces p before after hmood hp hfeel hkeeps => ?_, ?_⟩
  · refine mem_byMood.2 ⟨hp, mood, hmood, ?_⟩
    rw [hfeel]
    exact lowerList_infix hkeeps
  · rw [← lowerList_infix_iff]
    constructor
    · intro h whole hwhole
      have hmem := h [mood] [.feeling (String.ofList whole)] _ (List.mem_singleton_self _)
        (List.mem_singleton_self _) (by rwa [Piece.feel_feeling, String.toList_ofList])
      obtain ⟨-, _, hmood, hinfix⟩ := mem_byMood.1 hmem
      rw [List.mem_singleton.1 hmood, Piece.feel_feeling, String.toList_ofList] at hinfix
      exact hinfix
    · intro h moods pieces p hmood hp hinfix
      exact mem_byMood.2 ⟨hp, mood, hmood, h _ hinfix⟩

/-- A description that begins with a shorter word, `light`, in capitals. -/
def phosphorus : Piece := .feeling "ΦΩΣΦΟΡΟΣ"

/-- The last letter of the shorter word is final by itself, and is not in the longer one. -/
theorem byMood_phosphorus :
    "ΦΩΣ" ∈ ["ΦΩΣ"] ∧ phosphorus ∈ [phosphorus] ∧ "ΦΩΣ".toList <:+: phosphorus.feel.toList ∧
      phosphorus ∉ byMood ["ΦΩΣ"] [phosphorus] := by
  have hinfix : "ΦΩΣ".toList <:+: phosphorus.feel.toList := by decide +kernel
  have hnone : (byMood ["ΦΩΣ"] [phosphorus]).length = 0 := by decide +kernel
  refine ⟨List.mem_singleton_self _, List.mem_singleton_self _, hinfix, ?_⟩
  rw [List.length_eq_zero_iff.1 hnone]
  exact List.not_mem_nil

/-! ## Moods in ASCII -/

/-- Two characters are the same, or one of them is the other as a capital of ASCII. -/
def EqUpToCase (c d : Char) : Prop :=
  c = d ∨ ('A' ≤ c ∧ c ≤ 'Z' ∧ d.toNat = c.toNat + 32) ∨
    ('A' ≤ d ∧ d ≤ 'Z' ∧ c.toNat = d.toNat + 32)

theorem capital_iff {c : Char} : 'A' ≤ c ∧ c ≤ 'Z' ↔ 65 ≤ c.toNat ∧ c.toNat ≤ 90 := Iff.rfl

theorem toNat_toLower (c : Char) :
    c.toLower.toNat = if 65 ≤ c.toNat ∧ c.toNat ≤ 90 then c.toNat + 32 else c.toNat := by
  unfold Char.toLower
  split
  · next h =>
    have hcapital : 65 ≤ c.toNat ∧ c.toNat ≤ 90 := h
    have hshift : (32 : UInt32).toNat = 32 := rfl
    rw [if_pos hcapital]
    change (c.val + 32).toNat = c.toNat + 32
    rw [UInt32.toNat_add, hshift, Char.toNat_val]
    omega
  · next h => exact (if_neg h).symm

theorem eqUpToCase_iff {c d : Char} : EqUpToCase c d ↔ c.toLower = d.toLower := by
  rw [← Char.toNat_inj, toNat_toLower, toNat_toLower, EqUpToCase, ← Char.toNat_inj, ← and_assoc,
    ← and_assoc, capital_iff, capital_iff]
  split <;> split <;> omega

theorem forall₂_eqUpToCase_iff {xs ys : List Char} :
    List.Forall₂ EqUpToCase xs ys ↔ xs.map Char.toLower = ys.map Char.toLower := by
  have hrel : EqUpToCase = fun c d => c.toLower = d.toLower := by
    funext c d
    exact propext eqUpToCase_iff
  rw [← List.forall₂_eq_eq_eq, List.forall₂_map_left_iff, List.forall₂_map_right_iff, hrel]

theorem ascii_map_toLower {cs : List Char} : Ascii (cs.map Char.toLower) ↔ Ascii cs := by
  have hchar (c : Char) : c.toLower.toNat < 0x80 ↔ c.toNat < 0x80 := by
    rw [toNat_toLower]
    split <;> omega
  simp only [Ascii, List.forall_mem_map, hchar]

/-- A window of the text `feel` equals `mood` up to case, character by character. -/
def Occurs (mood feel : List Char) : Prop :=
  ∃ window, window <:+: feel ∧ List.Forall₂ EqUpToCase mood window

theorem occurs_iff {mood feel : List Char} :
    Occurs mood feel ↔ mood.map Char.toLower <:+: feel.map Char.toLower := by
  simp only [Occurs, forall₂_eqUpToCase_iff, List.infix_map_iff]

/-- Between ASCII texts, windows are what is compared. -/
theorem occurs_iff_of_ascii {mood feel : List Char} (hmood : Ascii mood) (hfeel : Ascii feel) :
    Occurs mood feel ↔ lowerList mood <:+: lowerList feel := by
  rw [occurs_iff, lowerList_eq, lowerList_eq, lowerWithin_ascii hmood, lowerWithin_ascii hfeel]

/-- In any text, a window that equals an ASCII text is in ASCII and has the same form as that text,
whatever stands around it. -/
theorem Occurs.lowerList_infix {mood feel : List Char} (h : Occurs mood feel) (hmood : Ascii mood) :
    lowerList mood <:+: lowerList feel := by
  obtain ⟨window, ⟨before, after, rfl⟩, hcase⟩ := h
  have hlower : mood.map Char.toLower = window.map Char.toLower := forall₂_eqUpToCase_iff.1 hcase
  have hwindow : Ascii window := by
    rw [← ascii_map_toLower, ← hlower, ascii_map_toLower]
    exact hmood
  have hform : lowerList mood = lowerWithin before.reverse after window := by
    rw [lowerList_eq, lowerWithin_ascii hmood, lowerWithin_ascii hwindow, hlower]
  rw [hform]
  exact lowerWithin_infix before window after

/-- The description of a piece is its field `feel`, or empty if there is none or it is no string. -/
inductive Piece.IsFeel (p : Piece) : String → Prop
  | told {feel : String} (h : p.get? "feel" = some (.str feel)) : IsFeel p feel
  | untold (h : ∀ feel, p.get? "feel" ≠ some (.str feel)) : IsFeel p ""

theorem Piece.IsFeel.eq {p : Piece} {feel : String} (h : p.IsFeel feel) : p.feel = feel := by
  cases h with
  | told h => rw [Piece.feel, h]
  | untold h =>
    rw [Piece.feel]
    split
    · next feel hfeel => exact absurd hfeel (h feel)
    · rfl

/-- **What moods in ASCII select**, piece by piece and in the order of the listing: every piece with a
window in its description that is one of the moods up to case, and of the pieces with a description in
ASCII no others. An empty mood selects everything, and no moods nothing. -/
theorem byMood_ascii {moods : List String} (hmoods : ∀ mood ∈ moods, Ascii mood.toList) :
    ∃ keep : Piece → Bool, (∀ pieces, byMood moods pieces = pieces.filter keep) ∧
      (∀ p feel, p.IsFeel feel → (∃ mood ∈ moods, Occurs mood.toList feel.toList) → keep p) ∧
      (∀ p feel, p.IsFeel feel → Ascii feel.toList →
        (keep p ↔ ∃ mood ∈ moods, Occurs mood.toList feel.toList)) ∧
      ("" ∈ moods → ∀ p, keep p) ∧ (moods = [] → ∀ p, ¬ keep p) := by
  have hkeep {p : Piece} {feel : String} (hfeel : p.IsFeel feel) :
      decide (p.Mentions moods) ↔
        ∃ mood ∈ moods, lowerList mood.toList <:+: lowerList feel.toList := by
    rw [decide_eq_true_iff, Piece.mentions_iff, hfeel.eq]
  refine ⟨fun p => p.Mentions moods, byMood_eq moods, ?_, ?_, ?_, ?_⟩
  · rintro p feel hfeel ⟨mood, hmood, hoccurs⟩
    exact (hkeep hfeel).2 ⟨mood, hmood, hoccurs.lowerList_infix (hmoods mood hmood)⟩
  · intro p feel hfeel hascii
    rw [hkeep hfeel]
    refine exists_congr fun mood => and_congr_right fun hmood => ?_
    exact (occurs_iff_of_ascii (hmoods mood hmood) hascii).symm
  · intro hempty p
    rw [decide_eq_true_iff, Piece.mentions_iff]
    exact ⟨"", hempty, List.nil_infix⟩
  · rintro rfl p
    rw [decide_eq_true_iff, Piece.mentions_iff]
    rintro ⟨mood, hmood, -⟩
    exact List.not_mem_nil hmood

/-- A mood in a text that is not ASCII, and in one that is; the other pieces do not have it. -/
theorem byMood_ascii_bright :
    (∀ mood ∈ ["Bright"], Ascii mood.toList) ∧
      byMood ["Bright"] [.feeling "¡BRIGHT!", .feeling "dark", .ofMembers [], .feeling "brightly"] =
        [.feeling "¡BRIGHT!", .feeling "brightly"] := by
  have hascii : ∀ mood ∈ ["Bright"], Ascii mood.toList :=
    List.forall_mem_singleton.2 (ascii_of_all (by decide))
  obtain ⟨keep, hfilter, hkept, hexact, -, -⟩ := byMood_ascii hascii
  have hloud : keep (.feeling "¡BRIGHT!") := by
    refine hkept _ "¡BRIGHT!" (.told rfl) ⟨"Bright", List.mem_singleton_self _, ?_⟩
    exact occurs_iff.2 (by decide)
  have hdark : ¬ keep (.feeling "dark") := by
    rw [hexact _ "dark" (.told rfl) (ascii_of_all (by decide))]
    simp only [occurs_iff]
    decide
  have hnone : ¬ keep (.ofMembers []) := by
    rw [hexact _ "" (.untold (by nofun)) (ascii_of_all (by decide))]
    simp only [occurs_iff]
    decide
  have hlong : keep (.feeling "brightly") := by
    rw [hexact _ "brightly" (.told rfl) (ascii_of_all (by decide))]
    simp only [occurs_iff]
    decide
  refine ⟨hascii, ?_⟩
  rw [hfilter, List.filter_cons_of_pos hloud, List.filter_cons_of_neg hdark,
    List.filter_cons_of_neg hnone, List.filter_cons_of_pos hlong, List.filter_nil]

end MusicCatalog
