import MusicCatalog.Entry
import MusicCatalog.Proofs.Json.Once
import MusicCatalog.Proofs.Piece

/-!
# Entries are read from objects

The reader of entries sends the own members to their places and all others to the piece. In which
order they stand makes no difference, and of the others each key may be repeated.

* `Tier.Names`, `Tier.reads_named`: the values that name a tier;
* **`Entry.Holds`**: what an object must have, and the entry that it gives;
* `Entry.foldlM_add`: what has been read once all members have;
* **`Entry.reads_spelled`**: the entry of any object, if there is room for its brackets;
* `Entry.Proper`, `Entry.reads_read`: entries whose pieces have no own members, and their objects.
-/

namespace MusicCatalog

open Json

/-! ## Tiers -/

namespace Tier

/-- The value names the tier: by its name, or by an object with that name as its only key. -/
def Names (t : Tier) (v : Value) : Prop := v = .str t.name ∨ v = .obj [(t.name, .null)]

variable {t : Tier}

theorem passesBlanks_read (room : Nat) : PassesBlanks (Tier.read room) := by
  intro s
  rw [Tier.read, Tier.read, skipBlanks_skipBlanks]

theorem named_name (t : Tier) (rest : List Char) : named t.name rest = .ok t := by
  rw [named, ofName?_eq_some_iff.2 rfl]

theorem reads_name (t : Tier) (room : Nat) {u : List Char} (h : Spells u (.str t.name)) :
    Reads (Tier.read room) u (.ok t) := by
  intro rest _
  obtain ⟨w, rfl, hliteral⟩ := (spells_str_iff.1 h).literal
  change reasoned (readString (w ++ rest) >>= fun p =>
    named p.1 p.2 >>= fun t => Except.ok (t, p.2)) = _
  rw [hliteral rest]
  change reasoned (named t.name rest >>= fun t => Except.ok (t, rest)) = _
  rw [named_name]
  rfl

theorem key_literal {b k s : List Char} (hb : Blanks b) (hk : Literal k t.name) :
    key (b ++ (k ++ s)) = .ok (t, s) := by
  rw [key, nextKey_first hb hk]
  change (named t.name s >>= fun t => Except.ok (t, s)) = _
  rw [named_name]
  rfl

theorem nothing_null {b s : List Char} (hb : Blanks b) :
    nothing (b ++ 'n' :: 'u' :: 'l' :: 'l' :: s) = .ok s := by
  rw [nothing, skipBlanks_append hb, skipBlanks_cons (by decide)]
  rfl

theorem close_brace {b s : List Char} (hb : Blanks b) : close (b ++ '}' :: s) = .ok s := by
  rw [close, skipBlanks_append hb, skipBlanks_cons (by decide)]
  rfl

theorem reads_object (t : Tier) (room : Nat) {u : List Char}
    (h : Spells u (.obj [(t.name, .null)])) : Reads (Tier.read (room + 1)) u (.ok t) := by
  intro rest _
  obtain ⟨ts, s, hts, hs, rfl⟩ := spells_obj_iff_isObject.1 h
  obtain ⟨_, _, ⟨k, _, hk, ⟨b₁, b₂, x, hb₁, hb₂, hx, rfl⟩, rfl⟩, hnil, rfl⟩ :=
    List.forall₂_cons_right_iff.1 hts
  obtain rfl := List.forall₂_nil_right_iff.1 hnil
  obtain ⟨b, b', hb, hb', rfl⟩ := hs
  obtain rfl := eq_null_of_spells hx
  simp only [List.append_assoc, List.cons_append, List.nil_append]
  change reasoned (key _ >>= fun p => colon p.2 >>= fun value => nothing value >>= fun s =>
    close s >>= fun r => Except.ok (p.1, r)) = _
  rw [key_literal hb hk.literal]
  change reasoned (colon _ >>= fun value => nothing value >>= fun s =>
    close s >>= fun r => Except.ok (t, r)) = _
  rw [colon_append hb₁]
  change reasoned (nothing _ >>= fun s => close s >>= fun r => Except.ok (t, r)) = _
  rw [nothing_null hb₂]
  change reasoned (close _ >>= fun r => Except.ok (t, r)) = _
  rw [close_brace hb']
  rfl

/-- **A tier is read** from each of the values that name it, if there is room for its brackets. -/
theorem reads_named {v : Value} (hv : t.Names v) (room : Nat) {u : List Char} (h : Spells u v) :
    Reads (Tier.read room) u ((v.within room).map fun _ => t) := by
  rcases hv with rfl | rfl
  · rw [Value.within, Value.depth, if_pos (Nat.zero_le room)]
    exact reads_name t room h
  · have hdepth : (Value.obj [(t.name, .null)]).depth = 1 := rfl
    rw [Value.within, hdepth]
    cases room with
    | zero =>
      obtain ⟨ts, s, -, -, rfl⟩ := spells_obj_iff.1 h
      exact fun rest _ => rfl
    | succ room =>
      rw [if_pos (Nat.le_add_left 1 room)]
      exact reads_object t room h

end Tier

/-! ## Members -/

namespace Entry

/-- The object gives the entry: each own key stands before one member, which names the tier or is a
link, and the piece has all others. -/
structure Holds (members : Members) (e : Entry) : Prop where
  access : HasOnce "access" e.tier.Names members
  downloadUrl : HasOnce "download_url" (· = .str e.downloadUrl) members
  pageUrl : HasOnce "metadata_url" (· = .str e.pageUrl) members
  piece : e.piece = .ofMembers (members.filter fun m => !ownKeys.contains m.1)

variable (e : Entry)

/-- What a member adds to what has been read, if its value is the one that the entry has. -/
def add (room : Nat) (parts : Parts) (m : String × Value) : Except Reason Parts :=
  if m.1 = "access" then
    (once m.1 parts.tier ((m.2.within room).map fun _ => e.tier)).map fun t =>
      { parts with tier := some t }
  else if m.1 = "download_url" then
    (once m.1 parts.downloadUrl ((m.2.within room).map fun _ => e.downloadUrl)).map fun u =>
      { parts with downloadUrl := some u }
  else if m.1 = "metadata_url" then
    (once m.1 parts.pageUrl ((m.2.within room).map fun _ => e.pageUrl)).map fun u =>
      { parts with pageUrl := some u }
  else (m.2.within room).map fun v => { parts with others := (m.1, v) :: parts.others }

/-- What has been read once some members have. -/
def partsOf (before : Members) : Parts where
  tier := filled "access" e.tier before
  downloadUrl := filled "download_url" e.downloadUrl before
  pageUrl := filled "metadata_url" e.pageUrl before
  others := (before.filter fun m => !ownKeys.contains m.1).reverse

variable {e} {ms : Members}

theorem mem_ownKeys {key : String} :
    key ∈ ownKeys ↔ key = "access" ∨ key = "download_url" ∨ key = "metadata_url" := by
  simp [ownKeys]

theorem partsOf_append (e : Entry) (before : Members) (key : String) (v : Value) :
    e.partsOf (before ++ [(key, v)]) =
      if key = "access" then { e.partsOf before with tier := some e.tier }
      else if key = "download_url" then { e.partsOf before with downloadUrl := some e.downloadUrl }
      else if key = "metadata_url" then { e.partsOf before with pageUrl := some e.pageUrl }
      else { e.partsOf before with others := (key, v) :: (e.partsOf before).others } := by
  simp only [partsOf, filled_append, List.filter_append, List.reverse_append]
  split_ifs <;> simp_all [ownKeys]

/-- A member is added to what has been read, if there is room for its brackets. -/
theorem add_partsOf {before : Members} {m : String × Value}
    (hnew : m.1 ∈ ownKeys → m.1 ∉ before.map Prod.fst) (room : Nat) :
    e.add room (e.partsOf before) m = (m.2.within room).map fun _ => e.partsOf (before ++ [m]) := by
  obtain ⟨key, v⟩ := m
  rw [mem_ownKeys] at hnew
  rw [partsOf_append, add]
  dsimp only at hnew ⊢
  split_ifs with haccess hdownload hpage
  · have hplace : (e.partsOf before).tier = none :=
      filled_of_not_mem (haccess ▸ hnew (.inl haccess))
    rw [hplace]
    cases v.within room <;> rfl
  · have hplace : (e.partsOf before).downloadUrl = none :=
      filled_of_not_mem (hdownload ▸ hnew (.inr (.inl hdownload)))
    rw [hplace]
    cases v.within room <;> rfl
  · have hplace : (e.partsOf before).pageUrl = none :=
      filled_of_not_mem (hpage ▸ hnew (.inr (.inr hpage)))
    rw [hplace]
    cases v.within room <;> rfl
  · rw [Value.within]
    split_ifs <;> rfl

theorem Holds.hasOnce (h : e.Holds ms) {key : String} (hkey : key ∈ ownKeys) :
    HasOnce key (fun _ => True) ms := by
  obtain ⟨⟨v, hv, -⟩, ⟨u, hu, -⟩, ⟨w, hw, -⟩, -⟩ := h
  rcases mem_ownKeys.1 hkey with rfl | rfl | rfl
  · exact ⟨v, hv, trivial⟩
  · exact ⟨u, hu, trivial⟩
  · exact ⟨w, hw, trivial⟩

/-- **All members** together give the piece, the tier and the links. -/
theorem foldlM_add (h : e.Holds ms) (room : Nat) :
    ms.foldlM (e.add room) .none =
      if membersDepth ms ≤ room then
        .ok ⟨some e.tier, some e.downloadUrl, some e.pageUrl,
          (ms.filter fun m => !ownKeys.contains m.1).reverse⟩
      else .error .tooDeep := by
  have honce : ∀ key ∈ ownKeys, (ms.map Prod.fst).count key ≤ 1 := fun key hkey =>
    (hasOnce_iff.1 (h.hasOnce hkey)).1.le
  have hall : ∀ key ∈ ownKeys, key ∈ ms.map Prod.fst := fun key hkey => by
    obtain ⟨v, hv, -⟩ := (h.hasOnce hkey).exists_mem
    exact List.mem_map_of_mem hv
  have hend : e.partsOf ms = ⟨some e.tier, some e.downloadUrl, some e.pageUrl,
      (ms.filter fun m => !ownKeys.contains m.1).reverse⟩ := by
    rw [partsOf, filled_of_mem (hall _ (by decide)), filled_of_mem (hall _ (by decide)),
      filled_of_mem (hall _ (by decide))]
  have hstart : Parts.none = e.partsOf [] := rfl
  rw [hstart, ← hend, foldlM_once (P := fun m => m.2.depth ≤ room) e.partsOf .tooDeep honce]
  · exact if_congr membersDepth_le_iff.symm rfl rfl
  · intro before m _ hnew
    rw [add_partsOf hnew, Value.within]
    split_ifs <;> rfl

theorem reads_readMember (h : e.Holds ms) {budget room : Nat} {m : String × Value} (hm : m ∈ ms)
    {u : List Char} (hu : BehindColon Spells u m.2) (hb : u.length ≤ budget) (parts : Parts) :
    Reads (readMember budget room parts m.1) u (e.add room parts m) := by
  obtain ⟨key, v⟩ := m
  unfold add
  dsimp only at hu ⊢
  split_ifs with haccess hdownload hpage
  · subst haccess
    have hkeyed := hu.reads (Tier.passesBlanks_read room) fun w hw _ =>
      Tier.reads_named (h.access.of_mem hm) room hw
    exact (reads_memberOnce hkeyed).map fun t => { parts with tier := some t }
  · subst hdownload
    obtain rfl : v = .str e.downloadUrl := h.downloadUrl.of_mem hm
    have hkeyed := hu.reads passesBlanks_stringValue fun w hw _ =>
      (spells_str_iff.1 hw).literal.reads_stringValue
    exact (reads_memberOnce hkeyed).map fun u => { parts with downloadUrl := some u }
  · subst hpage
    obtain rfl : v = .str e.pageUrl := h.pageUrl.of_mem hm
    have hkeyed := hu.reads passesBlanks_stringValue fun w hw _ =>
      (spells_str_iff.1 hw).literal.reads_stringValue
    exact (reads_memberOnce hkeyed).map fun u => { parts with pageUrl := some u }
  · have hkeyed := hu.reads (passesBlanks_readValue budget room) fun w hw hle =>
      Json.reads_spelled v hw room (hle.trans hb)
    have hread := reads_gather hkeyed parts.others key
    intro rest hr
    rw [readMember, if_neg haccess, if_neg hdownload, if_neg hpage, hread.bind hr]
    cases v.within room <;> rfl

/-! ## Entries -/

/-- **The entry of an object** is read from its spelling, if there is room for its brackets. -/
theorem reads_spelled (h : e.Holds ms) {t : List Char} (ht : Spells t (.obj ms)) {budget : Nat}
    (hb : t.length ≤ budget) (room : Nat) :
    Reads (read budget room) t
      (if (Value.obj ms).depth ≤ room then .ok e else .error .tooDeep) := by
  have hobject := spells_obj_iff_isObject.1 ht
  rw [Value.depth]
  intro rest hr
  cases room with
  | zero =>
    have hread : Reads (objectOf "struct EnrichedPiece" (readMember budget) Parts.none budget 0) t
        (.error .tooDeep) := hobject.reads_zero Parts.none
    rw [read, hread.bind hr, if_neg (by omega)]
    rfl
  | succ room =>
    have hread : Reads (objectOf "struct EnrichedPiece" (readMember budget) .none budget (room + 1))
        t (ms.foldlM (e.add room) .none) :=
      hobject.reads hb (fun m hm u hu hle => reads_readMember h hm hu (hle.trans hb)) .none
    rw [read, hread.bind hr, foldlM_add h, Nat.add_comm]
    by_cases hroom : membersDepth ms ≤ room
    · rw [if_pos hroom, if_pos (Nat.succ_le_succ hroom)]
      change Except.ok (Entry.mk (.ofMembers (List.reverse (List.reverse _))) _ _ _, rest) = _
      rw [List.reverse_reverse, ← h.piece]
      rfl
    · rw [if_neg hroom, if_neg fun h => hroom (Nat.le_of_succ_le_succ h)]
      rfl

/-! ## Written entries -/

/-- The piece has none of the members that the entry adds to it. -/
def Proper (e : Entry) : Prop := ∀ m ∈ e.piece.fields, m.1 ∉ ownKeys

theorem proper_attach (p : Piece) (t : Tier) (downloadUrl pageUrl : String) :
    (attach p t downloadUrl pageUrl).Proper := by
  intro m hm
  have h := (List.mem_filter.1 hm).2
  simpa using h

/-- The written object gives the entry back. -/
theorem Proper.holds (h : e.Proper) : e.Holds e.members := by
  have hothers : ∀ key ∈ ownKeys, (e.piece.fields.filter fun m => m.1 == key) = [] := by
    intro key hkey
    refine List.filter_eq_nil_iff.2 fun m hm heq => ?_
    rw [beq_iff_eq] at heq
    exact h m hm (heq ▸ hkey)
  have hown : (e.piece.fields.filter fun m => !ownKeys.contains m.1) = e.piece.fields := by
    refine List.filter_eq_self.2 fun m hm => ?_
    simpa using h m hm
  refine ⟨⟨.str e.tier.name, ?_, .inl rfl⟩, ⟨_, ?_, rfl⟩, ⟨_, ?_, rfl⟩, ?_⟩
  · rw [members, List.filter_append, hothers _ (by decide)]
    rfl
  · rw [members, List.filter_append, hothers _ (by decide)]
    rfl
  · rw [members, List.filter_append, hothers _ (by decide)]
    rfl
  · rw [members, List.filter_append, hown]
    change _ = Piece.ofMembers (e.piece.fields ++ [])
    rw [List.append_nil, Piece.ofMembers_fields]

/-- The own members of an entry add nothing to its depth. -/
theorem depth_toValue (e : Entry) : e.toValue.depth = 1 + membersDepth e.piece.fields := by
  have hdepth : ∀ n, membersDepth e.members ≤ n ↔ membersDepth e.piece.fields ≤ n := by
    intro n
    rw [members, membersDepth_le_iff, membersDepth_le_iff]
    simp [or_imp, forall_and, Value.depth]
  rw [toValue, Value.depth, Nat.le_antisymm ((hdepth _).2 le_rfl) ((hdepth _).1 le_rfl)]

/-- An entry has no more levels of brackets than an object that gives it. -/
theorem Holds.depth_le (h : e.Holds ms) : e.toValue.depth ≤ (Value.obj ms).depth := by
  have hothers : membersDepth (ms.filter fun m => !ownKeys.contains m.1) ≤ membersDepth ms :=
    membersDepth_le_iff.2 fun m hm => membersDepth_le_iff.1 le_rfl m (List.mem_filter.1 hm).1
  rw [depth_toValue, h.piece, Value.depth]
  exact Nat.add_le_add_left ((membersDepth_canonicalMembers_le _).trans hothers) 1

theorem floatFree_toValue (h : MembersFloatFree e.piece.fields) : e.toValue.FloatFree := by
  rw [membersFloatFree_iff] at h
  refine membersFloatFree_iff.2 ?_
  simpa [members, or_imp, forall_and, Value.FloatFree] using h

variable (e) in
/-- The entry, if there is room for its brackets. -/
def within (room : Nat) : Except Reason Entry :=
  if e.toValue.depth ≤ room then .ok e else .error .tooDeep

/-- **A written entry is read back**, if there is room for its brackets. -/
theorem reads_read (he : e.Proper) {t : List Char} (ht : Spells t e.toValue) {budget : Nat}
    (hb : t.length ≤ budget) (room : Nat) : Reads (read budget room) t (e.within room) :=
  reads_spelled he.holds ht hb room

end Entry

end MusicCatalog
