import MusicCatalog.Json.Layout
import MusicCatalog.Proofs.Utf8

/-!
# Text of one octet each

* `Ascii`, `octetsOf`: characters below `0x80`, and their octets;
* **`decode_ascii`**: such text is what its octets stand for;
* `ascii_enclose`: brackets around such text.
-/

namespace MusicCatalog.Text

open Json

/-- All characters are below `0x80`, so that each is one octet. -/
def Ascii (cs : List Char) : Prop := ∀ c ∈ cs, c.toNat < 0x80

theorem ascii_of_all {cs : List Char} (h : cs.all fun c => c.toNat < 0x80) : Ascii cs := by
  intro c hc
  exact of_decide_eq_true (List.all_eq_true.1 h c hc)

/-- The octets of such characters. -/
def octetsOf (cs : List Char) : List UInt8 := cs.map fun c => c.toNat.toUInt8

theorem octetsOf_eq_utf8 {cs : List Char} (h : Ascii cs) : octetsOf cs = utf8 cs := by
  induction cs with
  | nil => rfl
  | cons c cs ih =>
    obtain ⟨hc, hcs⟩ := List.forall_mem_cons.1 h
    have hoctet : String.utf8EncodeChar c = [UInt8.ofNat c.toNat] := if_pos (Nat.le_of_lt_succ hc)
    rw [octetsOf, List.map_cons, ← octetsOf, ih hcs, utf8, utf8, List.flatMap_cons, hoctet]
    rfl

/-- **ASCII text** has no byte order mark and is decoded octet by octet. -/
theorem decode_ascii {cs : List Char} (h : Ascii cs) : decode (octetsOf cs) = cs := by
  rw [octetsOf_eq_utf8 h]
  refine decode_utf8 fun hmark => ?_
  exact absurd (h '\uFEFF' (List.mem_of_head? hmark)) (by decide)

/-! ## Brackets -/

theorem ascii_more {ms : List (List Char)} (hms : ∀ m ∈ ms, Ascii m) (level : Nat) :
    Ascii (Layout.compact.more level ms) := by
  induction ms with
  | nil => exact List.forall_mem_nil _
  | cons m ms ih =>
    obtain ⟨hm, hms⟩ := List.forall_mem_cons.1 hms
    exact List.forall_mem_cons.2 ⟨by decide, List.forall_mem_append.2 ⟨hm, ih hms⟩⟩

theorem ascii_enclose {opening closing : Char} (ho : opening.toNat < 0x80)
    (hc : closing.toNat < 0x80) {ms : List (List Char)} (hms : ∀ m ∈ ms, Ascii m) (level : Nat) :
    Ascii (Layout.compact.enclose opening closing level ms) := by
  cases ms with
  | nil => exact List.forall_mem_cons.2 ⟨ho, List.forall_mem_singleton.2 hc⟩
  | cons m ms =>
    obtain ⟨hm, hms⟩ := List.forall_mem_cons.1 hms
    have hinner : Ascii (m ++ Layout.compact.more (level + 1) ms ++ []) := by
      rw [List.append_nil]
      exact List.forall_mem_append.2 ⟨hm, ascii_more hms (level + 1)⟩
    refine List.forall_mem_cons.2 ⟨ho, ?_⟩
    exact List.forall_mem_append.2 ⟨hinner, List.forall_mem_singleton.2 hc⟩

end MusicCatalog.Text
