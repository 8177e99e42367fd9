import MusicCatalog.Proofs.EntryParts
import MusicCatalog.Proofs.Json.Skipped
import MusicCatalog.Snapshot

/-!
# Snapshots are read from objects

The reader of snapshots looks at four members and passes over all others, so these may be anything
that is a value, and need not mean anything.

* `Meant`: the text of a value, with its meaning if it has one;
* `Snapshot.Counts`, `Snapshot.Lists`: the values of counts, and of the entries;
* **`Snapshot.Holds`**: what an object must have, and the snapshot that it gives;
* **`Snapshot.reads_object`**: the snapshot of any such object, in whatever order its members stand;
* **`Snapshot.takes_object`**: nothing else is read as a snapshot, if it is an object.
-/

namespace MusicCatalog

open Json Grammar

/-- The text is a value, and this is what it means, if it means anything. -/
def Json.Meant (t : List Char) (o : Option Value) : Prop := ∃ x, IsValue t x ∧ x.value? = o

theorem Json.IsObject.meant {t : List Char} {ms : Members} (h : IsObject Spells t ms) :
    IsObject Meant t (ms.map fun m => (m.1, some m.2)) := by
  obtain ⟨ts, s, hts, hs, rfl⟩ := h
  exact ⟨ts, s, List.forall₂_map_right_iff.2 hts, hs, rfl⟩

theorem Json.Meant.skips {t : List Char} {o : Option Value} (h : Meant t o) : Skips t := by
  obtain ⟨x, hx, -⟩ := h
  exact skips_value hx

namespace Snapshot

/-! ## Counts -/

/-- The value is an integer and counts so many. -/
def Counts (n : Nat) (o : Option Value) : Prop := ∃ k : Whole, o = some (.int k) ∧ k.toInt = n

theorem passesBlanks_readCount : PassesBlanks readCount := by
  intro s
  rw [readCount, readCount, skipBlanks_skipBlanks]

theorem front_count {t : List Char} {k : Whole} (h : Spells t (.int k)) :
    ∃ c r, t = c :: r ∧ (c = '-' ∨ c.isDigit) := by
  obtain ⟨x, hx, hv⟩ := h
  cases hx with
  | number hn => exact exists_numeral hn
  | string => simp [Phrase.value?] at hv
  | list => simp [Phrase.value?] at hv
  | object => simp [Phrase.value?] at hv
  | _ => cases hv

/-- **A count is read** from each spelling of its integer. -/
theorem reads_count {n : Nat} {k : Whole} (hk : k.toInt = n) {t : List Char}
    (h : Spells t (.int k)) : Reads readCount t (.ok n) := by
  obtain ⟨-, -, -, -, hread⟩ := reads_spelled_scalar h nofun nofun
  obtain ⟨c, r, rfl, hc⟩ := front_count h
  intro rest hr
  rw [List.cons_append, readCount, skipBlanks_cons (front_numeral hc).1]
  dsimp only
  rw [if_pos hc, ← List.cons_append, hread.bind hr]
  change reasoned (if 0 ≤ k.toInt then .ok (k.toInt.toNat, rest)
    else .error (.here (.wrongInteger k.toInt "usize") rest)) = _
  rw [hk, if_pos (Int.natCast_nonneg n)]
  rfl

theorem takes_readCount : Takes readCount fun t n => ∃ o, Meant t o ∧ Counts n o := by
  intro s n rest hs
  unfold readCount at hs
  split at hs
  · cases hs
  · next c r hskip =>
    obtain ⟨b, hb, rfl⟩ := exists_front hskip
    split_ifs at hs with hc
    obtain ⟨⟨v, r'⟩, hv, hs⟩ := bind_eq_ok.1 hs
    obtain ⟨t, ht, htext⟩ := spells_of_readScalar hv
    cases v with
    | int k =>
      dsimp only at hs
      split_ifs at hs with hk
      cases hs
      exact ⟨b, t, hb, ⟨_, ht, k, rfl, (Int.toNat_of_nonneg hk).symm⟩, by rw [htext]⟩
    | _ => cases hs

/-! ## Entries -/

/-- The value is a list of objects, which give the entries and have so many levels of brackets at
most. -/
def Lists (room : Nat) (es : List Entry) (o : Option Value) : Prop :=
  ∃ objects : List Members, o = some (.arr (objects.map .obj)) ∧
    List.Forall₂ (fun ms (e : Entry) => e.Holds ms ∧ (Value.obj ms).depth ≤ room) objects es

variable {budget room : Nat}

theorem passesBlanks_readEntries (budget room : Nat) : PassesBlanks (readEntries budget room) :=
  passesBlanks_listOf (Entry.read budget) budget room

/-- **The entries of a list** are read from its spelling. -/
theorem reads_entries {es : List Entry} {o : Option Value} (ho : Lists room es o) {t : List Char}
    (h : Meant t o) (hb : t.length ≤ budget) :
    Reads (readEntries budget (room + 1)) t (.ok es) := by
  obtain ⟨objects, rfl, hes⟩ := ho
  have hlist : IsList (fun u (e : Entry) => ∃ ms, Spells u (.obj ms) ∧ e.Holds ms ∧
      (Value.obj ms).depth ≤ room) t es := isList_exists_iff.2 ⟨objects, spells_objects_iff.1 h, hes⟩
  have hread : Reads (readEntries budget (room + 1)) t (es.mapM Except.ok) := by
    refine hlist.reads (fun _ _ ⟨ms, hu, _⟩ => hu.solid) hb ?_
    rintro e - u ⟨ms, hu, he, hdepth⟩ hle
    have hentry := Entry.reads_spelled he hu (hle.trans hb) room
    rwa [if_pos hdepth] at hentry
  rwa [mapM_eq_ok_map fun e _ => rfl, List.map_id'] at hread

theorem takes_readEntries (budget room : Nat) :
    Takes (readEntries budget (room + 1)) fun t es => ∃ o, Meant t o ∧ Lists room es o := by
  intro s es rest hs
  obtain ⟨b, t, hb, ht, hs⟩ := Takes.listOf (Entry.takes_read budget room) budget _ _ _ hs
  obtain ⟨objects, hobjects, hes⟩ := isList_exists_iff.1 ht
  exact ⟨b, t, hb, ⟨_, spells_objects_iff.2 hobjects, objects, rfl, hes⟩, hs⟩

/-! ## Members -/

/-- The keys that a reader of snapshots looks at. -/
def ownKeys : List String := ["generated_at", "total_pieces", "free_count", "pieces"]

theorem mem_ownKeys {key : String} : key ∈ ownKeys ↔
    key = "generated_at" ∨ key = "total_pieces" ∨ key = "free_count" ∨ key = "pieces" := by
  simp [ownKeys]

variable (s : Snapshot)

/-- The object gives the snapshot, with some value for its entries: each of the four keys stands
before one member. What other members there are makes no difference. -/
structure Holds (entries : Option Value → Prop) (ms : List (String × Option Value)) : Prop where
  generatedAt : HasOnce "generated_at" (· = some (.str s.generatedAt)) ms
  totalPieces : HasOnce "total_pieces" (Counts s.totalPieces) ms
  freeCount : HasOnce "free_count" (Counts s.freeCount) ms
  pieces : HasOnce "pieces" entries ms

/-- What a member adds to what has been read, if its value is the one that the snapshot has; of the
entries it is known what comes of reading them. -/
def add (entries : Except Reason (List Entry)) (parts : Parts) (m : String × Option Value) :
    Except Reason Parts :=
  if m.1 = "generated_at" then
    (once m.1 parts.generatedAt (.ok s.generatedAt)).map fun v =>
      { parts with generatedAt := some v }
  else if m.1 = "total_pieces" then
    (once m.1 parts.totalPieces (.ok s.totalPieces)).map fun v =>
      { parts with totalPieces := some v }
  else if m.1 = "free_count" then
    (once m.1 parts.freeCount (.ok s.freeCount)).map fun v => { parts with freeCount := some v }
  else if m.1 = "pieces" then
    (once m.1 parts.pieces entries).map fun v => { parts with pieces := some v }
  else .ok parts

/-- What has been read once some members have. -/
def partsOf (before : List (String × Option Value)) : Parts where
  generatedAt := filled "generated_at" s.generatedAt before
  totalPieces := filled "total_pieces" s.totalPieces before
  freeCount := filled "free_count" s.freeCount before
  pieces := filled "pieces" s.pieces before

variable {s} {ms : List (String × Option Value)}

theorem partsOf_append (s : Snapshot) (before : List (String × Option Value)) (key : String)
    (o : Option Value) :
    s.partsOf (before ++ [(key, o)]) =
      if key = "generated_at" then { s.partsOf before with generatedAt := some s.generatedAt }
      else if key = "total_pieces" then { s.partsOf before with totalPieces := some s.totalPieces }
      else if key = "free_count" then { s.partsOf before with freeCount := some s.freeCount }
      else if key = "pieces" then { s.partsOf before with pieces := some s.pieces }
      else s.partsOf before := by
  simp only [partsOf, filled_append]
  split_ifs <;> simp_all

section Fold

variable {fits : Prop} [Decidable fits]

/-- A member is added to what has been read, if the entries can be read. -/
theorem add_partsOf {before : List (String × Option Value)} {m : String × Option Value}
    (hnew : m.1 ∈ ownKeys → m.1 ∉ before.map Prod.fst) :
    s.add (if fits then .ok s.pieces else .error .tooDeep) (s.partsOf before) m =
      if m.1 = "pieces" → fits then .ok (s.partsOf (before ++ [m])) else .error .tooDeep := by
  obtain ⟨key, o⟩ := m
  rw [mem_ownKeys] at hnew
  rw [partsOf_append, add]
  dsimp only at hnew ⊢
  by_cases hgenerated : key = "generated_at"
  · subst hgenerated
    have hplace : (s.partsOf before).generatedAt = none := filled_of_not_mem (hnew (.inl rfl))
    rw [hplace]
    rfl
  by_cases htotal : key = "total_pieces"
  · subst htotal
    have hplace : (s.partsOf before).totalPieces = none :=
      filled_of_not_mem (hnew (.inr (.inl rfl)))
    rw [hplace]
    rfl
  by_cases hfree : key = "free_count"
  · subst hfree
    have hplace : (s.partsOf before).freeCount = none :=
      filled_of_not_mem (hnew (.inr (.inr (.inl rfl))))
    rw [hplace]
    rfl
  by_cases hpieces : key = "pieces"
  · subst hpieces
    have hplace : (s.partsOf before).pieces = none :=
      filled_of_not_mem (hnew (.inr (.inr (.inr rfl))))
    simp only [hgenerated, htotal, hfree, hplace, ↓reduceIte, true_implies]
    split_ifs <;> rfl
  · simp only [hgenerated, htotal, hfree, hpieces, ↓reduceIte, false_implies]

theorem Holds.hasOnce {entries : Option Value → Prop} (h : s.Holds entries ms) {key : String}
    (hkey : key ∈ ownKeys) : HasOnce key (fun _ => True) ms := by
  obtain ⟨⟨v, hv, -⟩, ⟨n, hn, -⟩, ⟨m, hm, -⟩, ⟨o, ho, -⟩⟩ := h
  rcases mem_ownKeys.1 hkey with rfl | rfl | rfl | rfl
  · exact ⟨v, hv, trivial⟩
  · exact ⟨n, hn, trivial⟩
  · exact ⟨m, hm, trivial⟩
  · exact ⟨o, ho, trivial⟩

/-- **All members** together give the snapshot, if the entries can be read. -/
theorem foldlM_add {entries : Option Value → Prop} (h : s.Holds entries ms) :
    ms.foldlM (s.add (if fits then .ok s.pieces else .error .tooDeep)) .none =
      if fits then
        .ok ⟨some s.generatedAt, some s.totalPieces, some s.freeCount, some s.pieces⟩
      else .error .tooDeep := by
  have honce : ∀ key ∈ ownKeys, (ms.map Prod.fst).count key ≤ 1 := fun key hkey =>
    (hasOnce_iff.1 (h.hasOnce hkey)).1.le
  have hall : ∀ key ∈ ownKeys, key ∈ ms.map Prod.fst := fun key hkey => by
    obtain ⟨v, hv, -⟩ := (h.hasOnce hkey).exists_mem
    exact List.mem_map_of_mem hv
  have hend : s.partsOf ms =
      ⟨some s.generatedAt, some s.totalPieces, some s.freeCount, some s.pieces⟩ := by
    rw [partsOf, filled_of_mem (hall _ (by decide)), filled_of_mem (hall _ (by decide)),
      filled_of_mem (hall _ (by decide)), filled_of_mem (hall _ (by decide))]
  have hfits : (∀ m ∈ ms, m.1 = "pieces" → fits) ↔ fits := by
    obtain ⟨o, ho, -⟩ := h.pieces.exists_mem
    exact ⟨fun h => h _ ho rfl, fun h _ _ _ => h⟩
  have hstart : Parts.none = s.partsOf [] := rfl
  rw [hstart, ← hend, foldlM_once (P := fun m => m.1 = "pieces" → fits) s.partsOf .tooDeep honce
    fun before m _ hnew => add_partsOf hnew]
  exact if_congr hfits rfl rfl

end Fold

theorem reads_readMember {entries : Option Value → Prop} {outcome : Except Reason (List Entry)}
    (h : s.Holds entries ms)
    (hentries : ∀ u o, Meant u o → entries o → u.length ≤ budget →
      Reads (readEntries budget room) u outcome)
    {m : String × Option Value} (hm : m ∈ ms) {u : List Char} (hu : BehindColon Meant u m.2)
    (hb : u.length ≤ budget) (parts : Parts) :
    Reads (readMember budget room parts m.1) u (s.add outcome parts m) := by
  obtain ⟨key, o⟩ := m
  unfold add
  dsimp only at hu ⊢
  split_ifs with hgenerated htotal hfree hpieces
  · subst hgenerated
    obtain rfl : o = some (.str s.generatedAt) := h.generatedAt.of_mem hm
    have hkeyed := hu.reads passesBlanks_stringValue fun w hw _ =>
      (spells_str_iff.1 hw).literal.reads_stringValue
    exact (reads_memberOnce hkeyed).map fun v => { parts with generatedAt := some v }
  · subst htotal
    obtain ⟨k, rfl, hk⟩ := h.totalPieces.of_mem hm
    have hkeyed := hu.reads passesBlanks_readCount fun w hw _ => reads_count hk hw
    exact (reads_memberOnce hkeyed).map fun v => { parts with totalPieces := some v }
  · subst hfree
    obtain ⟨k, rfl, hk⟩ := h.freeCount.of_mem hm
    have hkeyed := hu.reads passesBlanks_readCount fun w hw _ => reads_count hk hw
    exact (reads_memberOnce hkeyed).map fun v => { parts with freeCount := some v }
  · subst hpieces
    have hkeyed := hu.reads (passesBlanks_readEntries budget room) fun w hw hle =>
      hentries w o hw (h.pieces.of_mem hm) (hle.trans hb)
    exact (reads_memberOnce hkeyed).map fun v => { parts with pieces := some v }
  · obtain ⟨b, b', w, hb₁, hb₂, hw, rfl⟩ := hu
    simp only [List.length_append, List.length_cons] at hb
    intro rest hr
    rw [readMember, if_neg hgenerated, if_neg htotal, if_neg hfree, if_neg hpieces,
      List.append_assoc, List.cons_append, List.append_assoc, colon_append hb₁]
    change reasoned (skipValue (2 * budget + 1) (b' ++ (w ++ rest)) >>= fun r =>
      Except.ok (parts, r)) = _
    rw [hw.skips _ _ _ (by omega) hb₂ hr]
    rfl

/-! ## Objects -/

/-- The snapshot of the parts that an object has given. -/
def ofObject (p : Parts × List Char) : Except Fault (Snapshot × List Char) :=
  match p.1.snapshot with
  | .ok snapshot => .ok (snapshot, p.2)
  | .error reason => .error (.here reason p.2)

/-- Reads a snapshot that is given as an object. -/
def readObject (budget room : Nat) : Reader Snapshot := fun s =>
  objectOf kind (readMember budget) .none budget room s >>= ofObject

/-- Where a brace opens, the other form of a snapshot, a list, is out of question. -/
theorem read_brace {s r : List Char} (h : skipBlanks s = '{' :: r) :
    read budget room s = readObject budget room s := by
  have hskip : skipBlanks ('{' :: r) = '{' :: r := skipBlanks_cons (by decide)
  have hobject : objectOf kind (readMember budget) Parts.none budget room ('{' :: r) =
      objectOf kind (readMember budget) Parts.none budget room s := by
    simp only [objectOf, h, hskip]
  unfold read readObject
  rw [h]
  dsimp only
  rw [if_neg (by decide), hobject]
  rfl

/-- **The snapshot of an object** is read from its text, if its entries can be read. -/
theorem reads_object {entries : Option Value → Prop} {fits : Prop} [Decidable fits]
    (h : s.Holds entries ms) {t : List Char} (ht : IsObject Meant t ms) (hb : t.length ≤ budget)
    (hentries : ∀ u o, Meant u o → entries o → u.length ≤ budget →
      Reads (readEntries budget room) u (if fits then .ok s.pieces else .error .tooDeep)) :
    Reads (read budget (room + 1)) t (if fits then .ok s else .error .tooDeep) := by
  intro rest hr
  have hopen : ∃ r, t ++ rest = '{' :: r := by
    obtain ⟨ts, u, -, -, rfl⟩ := ht
    exact ⟨_, rfl⟩
  obtain ⟨r, hopen⟩ := hopen
  have hread : Reads (objectOf kind (readMember budget) .none budget (room + 1)) t
      (ms.foldlM (s.add (if fits then .ok s.pieces else .error .tooDeep)) .none) :=
    ht.reads hb (fun m hm u hu hle => reads_readMember h hentries hm hu (hle.trans hb)) .none
  rw [read_brace (r := r) (by rw [hopen]; exact skipBlanks_cons (by decide)), readObject,
    hread.bind hr, foldlM_add h]
  split_ifs <;> rfl

/-! ## Snapshots that were read -/

/-- What a member adds to what has been read: one of the four its value, which must be the first for
its key, and every other one nothing. -/
inductive Parts.Adds (room : Nat) : Parts → String × Option Value → Parts → Prop
  | generatedAt {parts : Parts} {k : String} (hnew : parts.generatedAt = .none) :
    Adds room parts ("generated_at", some (.str k)) { parts with generatedAt := some k }
  | totalPieces {parts : Parts} {n : Nat} {o : Option Value} (hnew : parts.totalPieces = .none)
    (ho : Counts n o) : Adds room parts ("total_pieces", o) { parts with totalPieces := some n }
  | freeCount {parts : Parts} {n : Nat} {o : Option Value} (hnew : parts.freeCount = .none)
    (ho : Counts n o) : Adds room parts ("free_count", o) { parts with freeCount := some n }
  | pieces {parts : Parts} {es : List Entry} {o : Option Value} (hnew : parts.pieces = .none)
    (ho : Lists room es o) : Adds room parts ("pieces", o) { parts with pieces := some es }
  | other {parts : Parts} {m : String × Option Value} (hkey : m.1 ∉ ownKeys) : Adds room parts m parts

theorem takes_stamp : Takes stringValue fun t k => ∃ o, Meant t o ∧ o = some (.str k) :=
  takes_stringValue.mono fun _ _ ⟨v, hv, hk⟩ => ⟨some v, hv, congrArg some hk⟩

theorem takes_readMember (budget room : Nat) :
    TakesMember (readMember budget (room + 1)) Meant (Parts.Adds room) := by
  intro parts key s parts' rest hs
  unfold readMember at hs
  split_ifs at hs with hgenerated htotal hfree hpieces
  · obtain ⟨⟨k, r⟩, honce, hs⟩ := bind_eq_ok.1 hs
    cases hs
    obtain ⟨hnew, u, _, hu, rfl, rfl⟩ := takes_stamp.memberOnce honce
    exact ⟨u, some (.str k), hu, hgenerated ▸ .generatedAt hnew, rfl⟩
  · obtain ⟨⟨n, r⟩, honce, hs⟩ := bind_eq_ok.1 hs
    cases hs
    obtain ⟨hnew, u, o, hu, ho, rfl⟩ := takes_readCount.memberOnce honce
    exact ⟨u, o, hu, htotal ▸ .totalPieces hnew ho, rfl⟩
  · obtain ⟨⟨n, r⟩, honce, hs⟩ := bind_eq_ok.1 hs
    cases hs
    obtain ⟨hnew, u, o, hu, ho, rfl⟩ := takes_readCount.memberOnce honce
    exact ⟨u, o, hu, hfree ▸ .freeCount hnew ho, rfl⟩
  · obtain ⟨⟨es, r⟩, honce, hs⟩ := bind_eq_ok.1 hs
    cases hs
    obtain ⟨hnew, u, o, hu, ho, rfl⟩ := (takes_readEntries budget room).memberOnce honce
    exact ⟨u, o, hu, hpieces ▸ .pieces hnew ho, rfl⟩
  · obtain ⟨value, hcolon, hs⟩ := bind_eq_ok.1 hs
    obtain ⟨r, hskip, hs⟩ := bind_eq_ok.1 hs
    cases hs
    obtain ⟨b, hb, rfl⟩ := blanks_of_colon hcolon
    obtain ⟨b', w, x, hb', hw, rfl⟩ := (exists_value_of_skip _).1 _ _ hskip
    have hkey : key ∉ ownKeys := fun h => by
      rcases mem_ownKeys.1 h with h | h | h | h
      · exact hgenerated h
      · exact htotal h
      · exact hfree h
      · exact hpieces h
    exact ⟨_, x.value?, ⟨b, b', w, hb, hb', ⟨x, hw, rfl⟩, rfl⟩, .other hkey, by simp⟩

theorem Parts.snapshot_eq_ok {parts : Parts} :
    parts.snapshot = .ok s ↔
      parts.generatedAt = some s.generatedAt ∧ parts.totalPieces = some s.totalPieces ∧
        parts.freeCount = some s.freeCount ∧ parts.pieces = some s.pieces := by
  obtain ⟨generatedAt, totalPieces, freeCount, pieces⟩ := s
  obtain ⟨generatedAt?, totalPieces?, freeCount?, pieces?⟩ := parts
  cases generatedAt? <;> cases totalPieces? <;> cases freeCount? <;> cases pieces? <;>
    simp [Parts.snapshot]

theorem holds_of_chain {parts : Parts} (hchain : Chain (Parts.Adds room) .none ms parts)
    (hs : parts.snapshot = .ok s) : s.Holds (Lists room s.pieces) ms := by
  obtain ⟨hgenerated, htotal, hfree, hpieces⟩ := Parts.snapshot_eq_ok.1 hs
  refine ⟨hchain.hasOnce Parts.generatedAt (fun o k => o = some (.str k)) ?_ rfl hgenerated,
    hchain.hasOnce Parts.totalPieces (fun o n => Counts n o) ?_ rfl htotal,
    hchain.hasOnce Parts.freeCount (fun o n => Counts n o) ?_ rfl hfree,
    hchain.hasOnce Parts.pieces (fun o es => Lists room es o) ?_ rfl hpieces⟩
  · intro a m b hm
    cases hm with
    | generatedAt hnew => exact .inl ⟨rfl, hnew, _, rfl, rfl⟩
    | other hkey => exact .inr ⟨fun h => hkey (mem_ownKeys.2 (.inl h)), rfl⟩
    | _ => exact .inr ⟨by simp, rfl⟩
  · intro a m b hm
    cases hm with
    | totalPieces hnew ho => exact .inl ⟨rfl, hnew, _, rfl, ho⟩
    | other hkey => exact .inr ⟨fun h => hkey (mem_ownKeys.2 (.inr (.inl h))), rfl⟩
    | _ => exact .inr ⟨by simp, rfl⟩
  · intro a m b hm
    cases hm with
    | freeCount hnew ho => exact .inl ⟨rfl, hnew, _, rfl, ho⟩
    | other hkey => exact .inr ⟨fun h => hkey (mem_ownKeys.2 (.inr (.inr (.inl h)))), rfl⟩
    | _ => exact .inr ⟨by simp, rfl⟩
  · intro a m b hm
    cases hm with
    | pieces hnew ho => exact .inl ⟨rfl, hnew, _, rfl, ho⟩
    | other hkey => exact .inr ⟨fun h => hkey (mem_ownKeys.2 (.inr (.inr (.inr h)))), rfl⟩
    | _ => exact .inr ⟨by simp, rfl⟩

/-- **A snapshot that is read from an object** has the members of that object. -/
theorem takes_object (budget room : Nat) :
    Takes (readObject budget (room + 2)) fun t s =>
      ∃ ms, IsObject Meant t ms ∧ s.Holds (Lists room s.pieces) ms := by
  intro s snapshot rest hs
  obtain ⟨⟨parts, r⟩, hparts, hsnapshot⟩ := bind_eq_ok.1 hs
  have htakes : Takes (objectOf kind (readMember budget) .none budget (room + 2)) _ :=
    TakesMember.objectOf (takes_readMember budget room) Parts.none budget
  obtain ⟨b, t, hb, ⟨ms, ht, hchain⟩, htext⟩ := htakes _ _ _ hparts
  unfold ofObject at hsnapshot
  split at hsnapshot
  · next hok =>
    cases hsnapshot
    exact ⟨b, t, hb, ⟨ms, ht, holds_of_chain hchain hok⟩, htext⟩
  · cases hsnapshot

end Snapshot

end MusicCatalog
