import MusicCatalog.Proofs.Keys

/-!
# The readers of pieces and entries, and the reader of values

The readers of pieces and of entries never see a whole value, but accept the same texts as if they
did: what they give is made of the value that any reader gets from the text.

* `Value.canonical_eq_arr_iff`: lists in canonical form;
* `Piece.forall₂_ofValue?_iff`: the values that are pieces are the objects;
* **`Piece.parseList_typed`**: lists of pieces, from the values of a list;
* `HasOnce.exists_lookup`: the value of a key that stands once;
* **`Entry.parse_flattened`**: entries, from the piece of their object.
-/

namespace MusicCatalog

open Json

/-! ## Lists of pieces -/

theorem Json.Value.canonical_eq_arr_iff {v : Value} {vs : List Value} :
    v.canonical = .arr vs ↔ ∃ us, v = .arr us ∧ vs = us.map Value.canonical := by
  cases v with
  | arr us =>
    rw [Value.canonical, canonicalItems_eq_map, Value.arr.injEq]
    exact ⟨fun h => ⟨us, rfl, h.symm⟩, fun ⟨_, hu, h⟩ => by rw [h, Value.arr.inj hu]⟩
  | _ => simp [Value.canonical]

namespace Piece

variable {text : String} {ps : List Piece}

theorem ofValue?_canonical (v : Value) : ofValue? v.canonical = ofValue? v := by
  cases v with
  | obj ms =>
    rw [Value.canonical, ofValue?, ofValue?]
    simp only [ofMembers, canonicalMembers_eq_self (canonicalMembers_canonical ms)]
  | _ => rfl

theorem ofValue?_eq_some_iff {v : Value} {p : Piece} :
    ofValue? v = some p ↔ ∃ ms, v = .obj ms ∧ p = ofMembers ms := by
  cases v with
  | obj ms =>
    rw [ofValue?, Option.some.injEq]
    exact ⟨fun h => ⟨ms, rfl, h.symm⟩, fun ⟨_, hm, h⟩ => by rw [h, Value.obj.inj hm]⟩
  | _ => simp [ofValue?]

/-- The values that are pieces are the objects. -/
theorem forall₂_ofValue?_iff {vs : List Value} :
    List.Forall₂ (fun v p => ofValue? v = some p) vs ps ↔
      ∃ objects : List Members, vs = objects.map .obj ∧ ps = objects.map ofMembers := by
  constructor
  · intro h
    induction h with
    | nil => exact ⟨[], rfl, rfl⟩
    | cons h _ ih =>
      obtain ⟨ms, rfl, rfl⟩ := ofValue?_eq_some_iff.1 h
      obtain ⟨objects, rfl, rfl⟩ := ih
      exact ⟨ms :: objects, rfl, rfl⟩
  · rintro ⟨objects, rfl, rfl⟩
    rw [List.forall₂_map_left_iff, List.forall₂_map_right_iff]
    exact List.forall₂_same.2 fun _ _ => rfl

theorem parseList_eq_ok_iff_objects :
    parseList text = .ok ps ↔ ∃ objects : List Members,
      Value.parse text = .ok (.arr (objects.map .obj)) ∧ ps = objects.map ofMembers := by
  simp only [parseList_eq_ok_iff, Value.parse_eq_ok_iff]
  rfl

/-- The pieces of a list that is read are those of its values, in canonical form or not. -/
theorem parseList_eq_ok_iff_values :
    parseList text = .ok ps ↔ ∃ v vs, Value.parse text = .ok v ∧ v.canonical = .arr vs ∧
      List.Forall₂ (fun w p => ofValue? w = some p) vs ps := by
  rw [parseList_eq_ok_iff_objects]
  constructor
  · rintro ⟨objects, hparse, hps⟩
    refine ⟨_, _, hparse, Value.canonical_eq_arr_iff.2 ⟨_, rfl, rfl⟩, ?_⟩
    simp only [List.forall₂_map_left_iff, ofValue?_canonical]
    exact List.forall₂_map_left_iff.1 (forall₂_ofValue?_iff.2 ⟨objects, rfl, hps⟩)
  · rintro ⟨v, vs, hparse, hv, hps⟩
    obtain ⟨us, rfl, rfl⟩ := Value.canonical_eq_arr_iff.1 hv
    simp only [List.forall₂_map_left_iff, ofValue?_canonical] at hps
    obtain ⟨objects, rfl, hpieces⟩ := forall₂_ofValue?_iff.1 hps
    exact ⟨objects, hparse, hpieces⟩

/-- **A list of pieces is read** exactly from the texts that are read as a list of objects, and its
pieces are those of the objects; every other text is refused. -/
theorem parseList_typed (text : String) :
    (∀ ps, parseList text = .ok ps ↔ ∃ v vs, Value.parse text = .ok v ∧ v.canonical = .arr vs ∧
      List.Forall₂ (fun w p => ofValue? w = some p) vs ps) ∧
    ((∃ refusal, parseList text = .error refusal) ↔
      (∃ refusal, Value.parse text = .error refusal) ∨
      ∃ v, Value.parse text = .ok v ∧
        ∀ objects : List Members, v.canonical ≠ .arr (objects.map .obj)) := by
  refine ⟨fun ps => parseList_eq_ok_iff_values, ?_⟩
  constructor
  · rintro ⟨refusal, hlist⟩
    cases hparse : Value.parse text with
    | error refusal => exact .inl ⟨refusal, rfl⟩
    | ok v =>
      refine .inr ⟨v, rfl, fun objects hv => ?_⟩
      have hok := parseList_eq_ok_iff_values.2
        ⟨v, _, hparse, hv, forall₂_ofValue?_iff.2 ⟨objects, rfl, rfl⟩⟩
      rw [hlist] at hok
      cases hok
  · intro h
    cases hlist : parseList text with
    | error refusal => exact ⟨refusal, rfl⟩
    | ok ps =>
      obtain ⟨v, vs, hparse, hv, hps⟩ := parseList_eq_ok_iff_values.1 hlist
      obtain ⟨objects, rfl, -⟩ := forall₂_ofValue?_iff.1 hps
      rw [hparse] at h
      obtain ⟨refusal, herror⟩ | ⟨u, hu, hnone⟩ := h
      · cases herror
      · cases hu
        exact absurd hv (hnone objects)

end Piece

/-! ## Entries -/

/-- The last value of a key that stands once is its only one. -/
theorem Json.HasOnce.exists_lookup {ν : Type} {key : String} {P : ν → Prop}
    {ms : List (String × ν)} (h : HasOnce key P ms) : ∃ v, ms.reverse.lookup key = some v ∧ P v := by
  obtain ⟨v, hv, -⟩ := h.exists_mem
  cases hlookup : ms.reverse.lookup key with
  | none =>
    have hne := List.lookup_eq_none_iff.1 hlookup (key, v) (List.mem_reverse.2 hv)
    simp at hne
  | some u =>
    obtain ⟨l, l', hms, -⟩ := List.lookup_eq_some_iff.1 hlookup
    have hu : (key, u) ∈ ms.reverse := by rw [hms]; simp
    exact ⟨u, rfl, h.of_mem (List.mem_reverse.1 hu)⟩

namespace Entry

variable {e : Entry} {ms : Members}

theorem Holds.exists_access (h : e.Holds ms) :
    ∃ v, (Piece.ofMembers ms).get? "access" = some v ∧
      (v = .str e.tier.name ∨ v = .obj [(e.tier.name, .null)]) := by
  obtain ⟨v, hv, hnames⟩ := h.access.exists_lookup
  refine ⟨v, ?_, hnames⟩
  rw [Piece.get?_ofMembers, hv]
  rcases hnames with rfl | rfl <;> rfl

/-- **An entry is read** from the objects that give it: what comes of the text is made of the piece of
the whole object, and any object is accepted that has each own key once, its tier by name. -/
theorem parse_flattened :
    (∀ (text : String) (e : Entry), parse text = .ok e →
      ∃ ms v, Value.parse text = .ok (.obj ms) ∧
        (Piece.ofMembers ms).get? "access" = some v ∧
        (v = .str e.tier.name ∨ v = .obj [(e.tier.name, .null)]) ∧
        (Piece.ofMembers ms).get? "download_url" = some (.str e.downloadUrl) ∧
        (Piece.ofMembers ms).get? "metadata_url" = some (.str e.pageUrl) ∧
        e = attach (.ofMembers ms) e.tier e.downloadUrl e.pageUrl) ∧
    (∀ (text : String) (ms : Members) (t : Tier) (downloadUrl pageUrl : String),
      Value.parse text = .ok (.obj ms) →
      (∀ key ∈ ["access", "download_url", "metadata_url"], (ms.map Prod.fst).count key = 1) →
      ("access", .str t.name) ∈ ms → ("download_url", .str downloadUrl) ∈ ms →
      ("metadata_url", .str pageUrl) ∈ ms →
      parse text = .ok (attach (.ofMembers ms) t downloadUrl pageUrl)) := by
  refine ⟨fun text e h => ?_, fun text ms t d u hparse hcount haccess hd hu => ?_⟩
  · obtain ⟨ms, hparse, he⟩ := parse_eq_ok_iff.1 h
    obtain ⟨v, hv, hnames⟩ := he.exists_access
    obtain ⟨_, hdownload, rfl⟩ := he.downloadUrl.exists_lookup
    obtain ⟨_, hpage, rfl⟩ := he.pageUrl.exists_lookup
    refine ⟨ms, v, hparse, hv, hnames, ?_, ?_, he.eq_attach⟩
    · rw [Piece.get?_ofMembers, hdownload]
      rfl
    · rw [Piece.get?_ofMembers, hpage]
      rfl
  · refine parse_eq_ok_iff.2 ⟨ms, hparse, ?_, ?_, ?_, (Piece.ofMembers_without ms ownKeys).symm⟩
    · exact hasOnce_iff.2 ⟨hcount _ (by decide), _, haccess, .inl rfl⟩
    · exact hasOnce_iff.2 ⟨hcount _ (by decide), _, hd, rfl⟩
    · exact hasOnce_iff.2 ⟨hcount _ (by decide), _, hu, rfl⟩

/-- Members of an entry in no order, with a key that is repeated. -/
def shuffled : Members :=
  [("feel", .null), ("metadata_url", .str "m"), ("feel", .str "calm"), ("access", .str "pro"),
    ("notes", .arr [.obj [("a", .null), ("a", .bool true)]]), ("download_url", .str "d")]

theorem parse_flattened_shuffled :
    ∃ e, parse (Value.obj shuffled).compact = .ok e ∧
      e.piece.get? "feel" = some (.str "calm") ∧
      ∃ ms, Value.parse (Value.obj shuffled).compact = .ok (.obj ms) ∧
        (Piece.ofMembers ms).get? "metadata_url" = some (.str "m") ∧
        e = attach (.ofMembers ms) .pro "d" "m" := by
  have hdenotes : Denotes (Value.obj shuffled).compact.toList (.obj shuffled) := by
    rw [Value.compact, String.toList_ofList]
    refine (spells_write Layout.blank_compact ?_ 0).denotes
    simp [shuffled, Value.FloatFree, MembersFloatFree, ItemsFloatFree]
  have hdepth : (Value.obj shuffled).depth ≤ maxDepth := by decide
  obtain ⟨hattach, hread⟩ := parse_flattened
  have hparse := hread _ shuffled .pro "d" "m" (Value.parse_eq_ok_iff.2 ⟨hdenotes, hdepth⟩)
    (by decide) (by simp [shuffled, Tier.name]) (by simp [shuffled]) (by simp [shuffled])
  obtain ⟨ms, -, hvalue, -, -, -, hpage, he⟩ := hattach _ _ hparse
  refine ⟨_, hparse, ?_, ms, hvalue, hpage, he⟩
  rw [get?_attach, Piece.get?_ofMembers]
  rfl

end Entry

end MusicCatalog
