import MusicCatalog.Proofs.Entry

/-!
# What an entry is made of when it is read

* `Tier.takes_read`: the reader of tiers takes the values that name one;
* **`Entry.Parts.Adds`**: what one member adds to what has been read;
* `Entry.Parts.others_of_chain`: the members that are no own ones are kept, in their order;
* `Entry.holds_of_chain`: the members as a whole give the entry;
* **`Entry.takes_read`**, **`Entry.parse_eq_ok_iff`**: the objects that are read as an entry.
-/

namespace MusicCatalog

open Json

/-! ## Tiers -/

namespace Tier

variable {t : Tier} {s rest : List Char}

theorem name_of_named {k : String} (h : named k rest = .ok t) : k = t.name := by
  unfold named at h
  split at h
  · next u hu =>
    cases h
    exact ofName?_eq_some_iff.1 hu
  · cases h

theorem spells_of_key (h : key s = .ok (t, rest)) :
    ∃ b k, Blanks b ∧ SpellsString k t.name ∧ s = b ++ (k ++ rest) := by
  obtain ⟨⟨next, r⟩, hnext, h⟩ := bind_eq_ok.1 h
  cases next with
  | none => cases h
  | some name =>
    obtain ⟨u, hnamed, h⟩ := bind_eq_ok.1 h
    cases h
    rw [← name_of_named hnamed]
    exact firstKey hnext

theorem blanks_of_nothing (h : nothing s = .ok rest) :
    ∃ b, Blanks b ∧ s = b ++ (['n', 'u', 'l', 'l'] ++ rest) := by
  unfold nothing at h
  split at h
  · cases h
  · next c r hskip =>
    obtain ⟨b, hb, rfl⟩ := exists_front hskip
    split_ifs at h with hc
    exact ⟨b, hb, by rw [hc, eq_append_of_word h]; rfl⟩

theorem blanks_of_close (h : close s = .ok rest) : ∃ b, Blanks b ∧ s = b ++ '}' :: rest := by
  unfold close at h
  split at h
  · cases h
  · next c r hskip =>
    obtain ⟨b, hb, rfl⟩ := exists_front hskip
    split_ifs at h with hc
    cases h
    exact ⟨b, hb, by rw [hc]⟩

/-- **A tier that is read** was spelled as one of its values. -/
theorem takes_read (room : Nat) :
    Takes (read room) fun u t => ∃ v, Spells u v ∧ t.Names v ∧ v.depth ≤ room := by
  intro s t rest hs
  unfold read at hs
  split at hs
  · cases hs
  · next c r hskip =>
    obtain ⟨b, hb, rfl⟩ := exists_front hskip
    split_ifs at hs with hquote hbrace
    · obtain ⟨⟨k, r'⟩, hk, hs⟩ := bind_eq_ok.1 hs
      obtain ⟨u, hnamed, hs⟩ := bind_eq_ok.1 hs
      cases hs
      obtain ⟨x, hx, rfl⟩ := spells_of_readString hk
      rw [name_of_named hnamed] at hx
      exact ⟨b, _, hb, ⟨_, hx.spells, .inl rfl, Nat.zero_le room⟩, by rw [hquote]; rfl⟩
    · cases room with
      | zero => cases hs
      | succ room =>
        obtain ⟨⟨u, afterKey⟩, hkey, hs⟩ := bind_eq_ok.1 hs
        obtain ⟨value, hcolon, hs⟩ := bind_eq_ok.1 hs
        obtain ⟨afterValue, hnothing, hs⟩ := bind_eq_ok.1 hs
        obtain ⟨r', hclose, hs⟩ := bind_eq_ok.1 hs
        cases hs
        obtain ⟨b₁, k, hb₁, hk, rfl⟩ := spells_of_key hkey
        obtain ⟨b₂, hb₂, rfl⟩ := blanks_of_colon hcolon
        obtain ⟨b₃, hb₃, rfl⟩ := blanks_of_nothing hnothing
        obtain ⟨b₄, hb₄, rfl⟩ := blanks_of_close hclose
        have hnull : BehindColon Spells (b₂ ++ ':' :: (b₃ ++ ['n', 'u', 'l', 'l'])) .null :=
          ⟨b₂, b₃, _, hb₂, hb₃, ⟨.null, .null, rfl⟩, rfl⟩
        have hmember : KeyedBy Spells _ (t.name, Value.null) := ⟨k, _, hk, hnull, rfl⟩
        have hobject := spells_obj_iff_isObject.2 ⟨_, _, .cons hmember .nil,
          ⟨b₁, b₄, hb₁, hb₄, rfl⟩, rfl⟩
        exact ⟨b, _, hb, ⟨_, hobject, .inr rfl, Nat.le_add_left 1 room⟩, by simp [hbrace]⟩

end Tier

/-! ## Members -/

namespace Entry

/-- What a member adds to what has been read: an own one its value, which must be the first for its
key, and every other one itself. -/
inductive Parts.Adds : Parts → String × Value → Parts → Prop
  | access {parts : Parts} {t : Tier} {v : Value} (hnew : parts.tier = .none) (hv : t.Names v) :
    Adds parts ("access", v) { parts with tier := some t }
  | downloadUrl {parts : Parts} {u : String} (hnew : parts.downloadUrl = .none) :
    Adds parts ("download_url", .str u) { parts with downloadUrl := some u }
  | pageUrl {parts : Parts} {u : String} (hnew : parts.pageUrl = .none) :
    Adds parts ("metadata_url", .str u) { parts with pageUrl := some u }
  | other {parts : Parts} {m : String × Value} (hkey : m.1 ∉ ownKeys) :
    Adds parts m { parts with others := m :: parts.others }

theorem takes_readMember (budget room : Nat) :
    TakesMember (readMember budget room) Spells fun parts m parts' =>
      m.2.depth ≤ room ∧ Parts.Adds parts m parts' := by
  intro parts key s parts' rest hs
  unfold readMember at hs
  split_ifs at hs with haccess hdownload hpage
  · obtain ⟨⟨t, r⟩, honce, hs⟩ := bind_eq_ok.1 hs
    cases hs
    obtain ⟨hnew, u, v, hu, ⟨hv, hdepth⟩, rfl⟩ := (Tier.takes_read room).memberOnce honce
    exact ⟨u, v, hu, ⟨hdepth, haccess ▸ .access hnew hv⟩, rfl⟩
  · obtain ⟨⟨k, r⟩, honce, hs⟩ := bind_eq_ok.1 hs
    cases hs
    obtain ⟨hnew, u, _, hu, rfl, rfl⟩ := takes_stringValue.memberOnce honce
    exact ⟨u, .str k, hu, ⟨Nat.zero_le room, hdownload ▸ .downloadUrl hnew⟩, rfl⟩
  · obtain ⟨⟨k, r⟩, honce, hs⟩ := bind_eq_ok.1 hs
    cases hs
    obtain ⟨hnew, u, _, hu, rfl, rfl⟩ := takes_stringValue.memberOnce honce
    exact ⟨u, .str k, hu, ⟨Nat.zero_le room, hpage ▸ .pageUrl hnew⟩, rfl⟩
  · obtain ⟨⟨others, r⟩, hgather, hs⟩ := bind_eq_ok.1 hs
    cases hs
    obtain ⟨u, v, hu, ⟨hdepth, rfl⟩, rfl⟩ := (takes_readValue budget room).gather _ _ _ _ _ hgather
    have hkey : key ∉ ownKeys := fun h => by
      rcases mem_ownKeys.1 h with h | h | h
      · exact haccess h
      · exact hdownload h
      · exact hpage h
    exact ⟨u, v, hu, ⟨hdepth, .other hkey⟩, rfl⟩

/-- The members that are no own ones are kept, last first. -/
theorem Parts.others_of_chain {parts parts' : Parts} {ms : Members}
    (h : Chain Parts.Adds parts ms parts') :
    parts'.others = (ms.filter fun m => !ownKeys.contains m.1).reverse ++ parts.others := by
  induction h with
  | nil => rfl
  | cons h _ ih =>
    rw [ih]
    cases h with
    | access => rfl
    | downloadUrl => rfl
    | pageUrl => rfl
    | other hkey =>
      rw [List.filter_cons_of_pos (by simpa using hkey), List.reverse_cons, List.append_assoc,
        List.singleton_append]

/-! ## Entries -/

variable {e : Entry}

theorem Parts.entry_eq_ok {parts : Parts} :
    parts.entry = .ok e ↔
      .ofMembers parts.others.reverse = e.piece ∧ parts.tier = some e.tier ∧
        parts.downloadUrl = some e.downloadUrl ∧ parts.pageUrl = some e.pageUrl := by
  obtain ⟨piece, tier, downloadUrl, pageUrl⟩ := e
  obtain ⟨tier?, downloadUrl?, pageUrl?, others⟩ := parts
  cases tier? <;> cases downloadUrl? <;> cases pageUrl? <;> simp [Parts.entry]

section Chain

variable {ms : Members} {parts : Parts}

/-- **The members of an object that is read** give the entry: its own members from one place each,
its piece from all others. -/
theorem holds_of_chain (hchain : Chain Parts.Adds .none ms parts) (he : parts.entry = .ok e) :
    e.Holds ms := by
  obtain ⟨hpiece, htier, hdownload, hpage⟩ := Parts.entry_eq_ok.1 he
  refine ⟨hchain.hasOnce Parts.tier (fun v t => t.Names v) ?_ rfl htier,
    hchain.hasOnce Parts.downloadUrl (fun v u => v = .str u) ?_ rfl hdownload,
    hchain.hasOnce Parts.pageUrl (fun v u => v = .str u) ?_ rfl hpage, ?_⟩
  · intro a m b hm
    cases hm with
    | access hnew hv => exact .inl ⟨rfl, hnew, _, rfl, hv⟩
    | downloadUrl | pageUrl => exact .inr ⟨by simp, rfl⟩
    | other hkey => exact .inr ⟨fun h => hkey (mem_ownKeys.2 (.inl h)), rfl⟩
  · intro a m b hm
    cases hm with
    | downloadUrl hnew => exact .inl ⟨rfl, hnew, _, rfl, rfl⟩
    | access | pageUrl => exact .inr ⟨by simp, rfl⟩
    | other hkey => exact .inr ⟨fun h => hkey (mem_ownKeys.2 (.inr (.inl h))), rfl⟩
  · intro a m b hm
    cases hm with
    | pageUrl hnew => exact .inl ⟨rfl, hnew, _, rfl, rfl⟩
    | access | downloadUrl => exact .inr ⟨by simp, rfl⟩
    | other hkey => exact .inr ⟨fun h => hkey (mem_ownKeys.2 (.inr (.inr h))), rfl⟩
  · rw [← hpiece, Parts.others_of_chain hchain, Parts.none, List.append_nil, List.reverse_reverse]

end Chain

/-- **An entry that is read** was the object of its members. -/
theorem takes_read (budget room : Nat) :
    Takes (read budget room) fun t e =>
      ∃ ms, Spells t (.obj ms) ∧ e.Holds ms ∧ (Value.obj ms).depth ≤ room := by
  intro s e rest hs
  obtain ⟨⟨parts, r⟩, hparts, hentry⟩ := bind_eq_ok.1 hs
  dsimp only at hentry
  split at hentry
  · next e' he =>
    cases hentry
    cases room with
    | zero => exact (Gives.objectOf_zero (fun _ => False) _ _ hparts).elim
    | succ room =>
      have htakes : Takes
          (objectOf "struct EnrichedPiece" (readMember budget) .none budget (room + 1)) _ :=
        TakesMember.objectOf (takes_readMember budget room) Parts.none budget
      obtain ⟨b, t, hb, ⟨ms, ht, hchain⟩, hs⟩ := htakes _ _ _ hparts
      obtain ⟨hdepth, hchain⟩ := Chain.forall_and (Q := fun m : String × Value => m.2.depth ≤ room) hchain
      refine ⟨b, t, hb, ⟨ms, spells_obj_iff_isObject.2 ht, holds_of_chain hchain he, ?_⟩, hs⟩
      rw [Value.depth, Nat.add_comm]
      exact Nat.succ_le_succ (membersDepth_le_iff.2 hdepth)
  · cases hentry

theorem passesBlanks_read (budget room : Nat) : PassesBlanks (read budget room) := by
  intro s
  simp only [read, objectOf, skipBlanks_skipBlanks]

/-- **A text is read as an entry** exactly if it stands for an object that gives it. -/
theorem parse_eq_ok_iff {text : String} :
    parse text = .ok e ↔ ∃ ms, Value.parse text = .ok (.obj ms) ∧ e.Holds ms := by
  simp only [Value.parse_eq_ok_iff]
  constructor
  · intro h
    obtain ⟨b, t, b', hb, ⟨ms, ht, he, hdepth⟩, hb', htext⟩ :=
      Takes.document (takes_read text.toList.length maxDepth) h
    exact ⟨ms, ⟨denotes_iff.2 ⟨b, t, b', hb, ht, hb', htext⟩, hdepth⟩, he⟩
  · rintro ⟨ms, ⟨hdenotes, hdepth⟩, he⟩
    obtain ⟨b, t, b', hb, ht, hb', htext⟩ := denotes_iff.1 hdenotes
    have hlength : t.length ≤ text.toList.length := by
      rw [htext, List.length_append, List.length_append]
      omega
    have hread := reads_spelled he ht hlength maxDepth
    rw [if_pos hdepth] at hread
    exact document_blanks (passesBlanks_read _ _) hread hb hb' htext

end Entry

end MusicCatalog
