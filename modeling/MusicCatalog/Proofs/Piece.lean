import MusicCatalog.Piece
import MusicCatalog.Proofs.Json.Accepted
import MusicCatalog.Proofs.Json.Phrased

/-!
# Pieces that are read

* `Piece.reads_spelled`, `Piece.takes_read`: the reader of pieces takes the spelling of an object, and
  nothing else;
* `IsListing`: a text is a list of some objects;
* **`Piece.parseList_eq_ok_iff`**: the texts that are lists of pieces, and the pieces;
* `Piece.parseList_listing`, `Piece.depth_of_parseList`: written listings, and the depth of pieces that
  were read.
-/

namespace MusicCatalog

open Json

namespace Piece

theorem ofMembers_fields (p : Piece) : ofMembers p.fields = p := by
  obtain ⟨fields, canonical⟩ := p
  simp only [ofMembers, canonicalMembers_eq_self canonical]

variable {budget room : Nat}

/-! ## Objects -/

/-- **The piece of an object** is read from its spelling, if there is room for its brackets. -/
theorem reads_spelled {t : List Char} {ms : Members} (h : Spells t (.obj ms))
    (hb : t.length ≤ budget) (room : Nat) :
    Reads (read budget room) t
      (if (Value.obj ms).depth ≤ room then .ok (ofMembers ms) else .error .tooDeep) := by
  rw [Value.depth]
  cases room with
  | zero =>
    obtain ⟨ts, s, -, -, rfl⟩ := spells_obj_iff.1 h
    intro rest _
    rw [if_neg (by omega)]
    rfl
  | succ room =>
    obtain ⟨s, rfl, hread⟩ := reads_gathered room h hb fun m _ u hu hlength =>
      Json.reads_spelled m.2 hu room hlength
    intro rest hr
    change reasoned (readMembers (gather (readValue budget room)) budget true [] (s ++ rest) >>=
      fun q => Except.ok (ofMembers q.1.reverse, q.2)) = _
    rw [hread.bind hr, Nat.add_comm]
    by_cases hroom : membersDepth ms ≤ room
    · rw [if_pos hroom, if_pos (Nat.succ_le_succ hroom)]
      change Except.ok (ofMembers ms.reverse.reverse, rest) = _
      rw [List.reverse_reverse]
      rfl
    · rw [if_neg hroom, if_neg fun h => hroom (Nat.le_of_succ_le_succ h)]
      rfl

theorem takes_read (budget room : Nat) :
    Takes (read budget (room + 1)) fun t p =>
      ∃ ms, Spells t (.obj ms) ∧ (∀ m ∈ ms, m.2.depth ≤ room) ∧ p = ofMembers ms := by
  intro s p rest hs
  obtain ⟨⟨members, r⟩, hmembers, hs⟩ := bind_eq_ok.1 hs
  have htakes : Takes
      (objectOf "a map" (fun room => gather (readValue budget room)) [] budget (room + 1)) _ :=
    TakesMember.objectOf (takes_readValue budget room).gather [] budget
  obtain ⟨b, t, hb, ⟨ms, ht, hchain⟩, rfl⟩ := htakes _ _ _ hmembers
  obtain ⟨hdepth, hchain⟩ := Chain.forall_and (Q := fun m : String × Value => m.2.depth ≤ room) hchain
  obtain rfl := hchain.gathered
  cases hs
  rw [List.append_nil, List.reverse_reverse]
  exact ⟨b, t, hb, ⟨ms, spells_obj_iff_isObject.2 ht, hdepth, rfl⟩, rfl⟩

end Piece

/-! ## Listings -/

/-- The text is a list of some objects and nothing else, and has at most 127 levels of brackets. -/
def IsListing (text : List Char) (objects : List Members) : Prop :=
  Denotes text (.arr (objects.map .obj)) ∧ (Value.arr (objects.map .obj)).depth ≤ 127

theorem spells_objects_iff {t : List Char} {objects : List Members} :
    Spells t (.arr (objects.map .obj)) ↔ IsList (fun u ms => Spells u (.obj ms)) t objects := by
  rw [spells_arr_iff, IsList]
  simp only [List.forall₂_map_right_iff]

theorem depth_listing_le_iff {objects : List Members} {n : Nat} :
    (Value.arr (objects.map .obj)).depth ≤ n + 2 ↔ ∀ ms ∈ objects, membersDepth ms ≤ n := by
  rw [Value.depth, Nat.add_comm, Nat.succ_le_succ_iff, itemsDepth_le_iff, List.forall_mem_map]
  refine forall₂_congr fun ms _ => ?_
  rw [Value.depth, Nat.add_comm, Nat.succ_le_succ_iff]

namespace Piece

variable {text : String} {ps : List Piece}

/-- The pieces of a listing are read. -/
theorem parseList_of_isListing {objects : List Members} (h : IsListing text.toList objects) :
    parseList text = .ok (objects.map ofMembers) := by
  obtain ⟨hdenotes, hdepth⟩ := h
  obtain ⟨b, t, b', hb, ht, hb', htext⟩ := denotes_iff.1 hdenotes
  have hlength : t.length ≤ text.toList.length := by
    rw [htext, List.length_append, List.length_append]
    omega
  have hread : Reads (readList text.toList.length maxDepth) t _ :=
    (spells_objects_iff.1 ht).reads (fun _ _ hu => hu.solid) hlength fun ms _ u hu hle =>
      reads_spelled hu (hle.trans hlength) 126
  have hall : (objects.mapM fun ms : Members =>
      if (Value.obj ms).depth ≤ 126 then Except.ok (ofMembers ms) else .error Reason.tooDeep) =
      .ok (objects.map ofMembers) := by
    refine mapM_eq_ok_map fun ms hms => if_pos ?_
    have := depth_listing_le_iff.1 hdepth ms hms
    rw [Value.depth]
    omega
  rw [hall] at hread
  exact document_blanks (passesBlanks_listOf _ _ _) hread hb hb' htext

theorem isListing_of_parseList (h : parseList text = .ok ps) :
    ∃ objects, IsListing text.toList objects ∧ ps = objects.map ofMembers := by
  have htakes : Takes (readList text.toList.length maxDepth) _ :=
    Takes.listOf (takes_read text.toList.length 125) text.toList.length
  obtain ⟨b, t, b', hb, ht, hb', htext⟩ := Takes.document htakes h
  obtain ⟨objects, hobjects, hall⟩ := isList_exists_iff.1 ht
  obtain ⟨hroom, hps⟩ := (List.forall₂_and_left objects ps).1 hall
  have hpieces : objects.map ofMembers = ps := forall₂_map_eq_iff.1 (hps.imp fun _ _ h => h.symm)
  exact ⟨objects, ⟨denotes_iff.2 ⟨b, t, b', hb, spells_objects_iff.2 hobjects, hb', htext⟩,
    depth_listing_le_iff.2 fun ms hms => membersDepth_le_iff.2 (hroom ms hms)⟩, hpieces.symm⟩

/-- **A list of pieces** is read from the listings of their objects, and from nothing else. -/
theorem parseList_eq_ok_iff :
    parseList text = .ok ps ↔
      ∃ objects, IsListing text.toList objects ∧ ps = objects.map ofMembers := by
  refine ⟨isListing_of_parseList, ?_⟩
  rintro ⟨objects, h, rfl⟩
  exact parseList_of_isListing h

/-- **A piece of a listing** has fields with at most 125 levels of brackets. -/
theorem depth_of_parseList (h : parseList text = .ok ps) :
    ∀ p ∈ ps, membersDepth p.fields ≤ 125 := by
  obtain ⟨objects, ⟨-, hdepth⟩, rfl⟩ := parseList_eq_ok_iff.1 h
  intro p hp
  obtain ⟨ms, hms, rfl⟩ := List.mem_map.1 hp
  exact (membersDepth_canonicalMembers_le ms).trans (depth_listing_le_iff.1 hdepth ms hms)

/-- The listing of some pieces, as the site would write it. -/
def listing (l : Layout) (ps : List Piece) : List Char :=
  l.list 0 (ps.map fun p => p.toValue.write l 1)

/-- **A written listing is read back**, if its pieces are not too deep. -/
theorem parseList_listing {l : Layout} (hl : l.Blank)
    (hfree : ∀ p ∈ ps, MembersFloatFree p.fields) (hdepth : ∀ p ∈ ps, p.toValue.depth ≤ 126) :
    parseList (String.ofList (listing l ps)) = .ok ps := by
  have hwritten : listing l ps = (Value.arr ((ps.map fields).map .obj)).write l 0 := by
    rw [Value.write, writeItems_eq_map, List.map_map, List.map_map]
    rfl
  have hvalues : (Value.arr ((ps.map fields).map .obj)).FloatFree := by
    refine itemsFloatFree_iff.2 ?_
    exact List.forall_mem_map.2 (List.forall_mem_map.2 hfree)
  have hroom : (Value.arr ((ps.map fields).map .obj)).depth ≤ 125 + 2 := by
    refine depth_listing_le_iff.2 (List.forall_mem_map.2 fun p hp => ?_)
    have := hdepth p hp
    rw [toValue, Value.depth] at this
    omega
  have hdenotes : Denotes (listing l ps) (.arr ((ps.map fields).map .obj)) := by
    rw [hwritten]
    exact (spells_write hl hvalues 0).denotes
  have hback : (ps.map fields).map ofMembers = ps := by
    rw [List.map_map]
    exact (List.map_congr_left fun p _ => ofMembers_fields p).trans (List.map_id ps)
  refine parseList_eq_ok_iff.2 ⟨ps.map fields, ⟨?_, hroom⟩, hback.symm⟩
  rwa [String.toList_ofList]

end Piece

end MusicCatalog
