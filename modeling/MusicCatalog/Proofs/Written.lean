import MusicCatalog.Proofs.Json.Equality
import MusicCatalog.Proofs.Json.Members
import MusicCatalog.Proofs.Piece

/-!
# Equal pieces are written alike

Where there are no floating numbers, a written value is read back as itself, so different values are
written differently. Pieces are written from their canonical form, which is why equality of pieces is
equality of their texts, and why it depends on the objects they were read from only so far as these
agree key by key.

* **`Value.Agrees`**: values that differ in nothing but the order of keys and in values that others of
  their key have replaced;
* `Value.agrees_iff`: these are the values with equal canonical forms;
* `Value.content_of_floatFree`, `write_inj`: without floating numbers, content and text are the value;
* `Piece.same_iff_write`, `Piece.same_ofMembers_iff`: equality of two pieces, by either;
* **`Piece.same_written`**: equality of pieces, of their texts, and of the objects in other texts.
-/

namespace MusicCatalog

open Json

namespace Json

/-! ## Agreement -/

/-- The values are the same but for the order of their keys, at every level, and for what stands before
another member of the same key. Numbers are compared as numbers. -/
inductive Value.Agrees : Value → Value → Prop
  | null : Agrees .null .null
  | bool (b : Bool) : Agrees (.bool b) (.bool b)
  | int (n : Whole) : Agrees (.int n) (.int n)
  | float {x y : Decimal.Binary64} (h : x.eqv y) : Agrees (.float x) (.float y)
  | str (s : String) : Agrees (.str s) (.str s)
  | arr {vs ws : List Value} (h : List.Forall₂ Agrees vs ws) : Agrees (.arr vs) (.arr ws)
  | obj {ms ns : Members}
    (h : ∀ key, Option.Rel Agrees (ms.reverse.lookup key) (ns.reverse.lookup key)) :
    Agrees (.obj ms) (.obj ns)

/-- A canonical form stays one without the signs of zeros. -/
theorem isCanonical_content {v : Value} (h : v.IsCanonical) : v.content.IsCanonical := by
  induction v using Value.induction with
  | arr items ih =>
    rw [Value.content, contentItems_eq_map]
    exact itemsCanonical_iff.2 <| List.forall_mem_map.2 fun v hv =>
      ih v hv (itemsCanonical_iff.1 h v hv)
  | obj members ih =>
    obtain ⟨hkeys, hvalues⟩ := membersCanonical_iff.1 h
    rw [Value.content, contentMembers_eq_map]
    refine membersCanonical_iff.2 ⟨?_, List.forall_mem_map.2 fun m hm => ih m hm (hvalues m hm)⟩
    rwa [List.map_map]
  | _ => trivial

/-- What is left of the last value of a key. -/
theorem lookup_content (ms : Members) (key : String) :
    (contentMembers (canonicalMembers ms)).lookup key =
      (ms.reverse.lookup key).map fun v => v.canonical.content := by
  rw [contentMembers_eq_map, lookup_map_values (fun _ v => v.content), lookup_canonicalMembers,
    Option.map_map]
  rfl

theorem canonical_content (ms : Members) :
    MembersCanonical (contentMembers (canonicalMembers ms)) :=
  isCanonical_content (v := .obj (canonicalMembers ms)) (canonicalMembers_canonical ms)

section Agrees

variable {P : Value → Value → Prop} {f : Value → Value}

theorem forall₂_iff_map {vs : List Value} (h : ∀ v ∈ vs, ∀ w, P v w ↔ f v = f w) (ws : List Value) :
    List.Forall₂ P vs ws ↔ vs.map f = ws.map f := by
  induction vs generalizing ws with
  | nil => cases ws <;> simp
  | cons v vs ih =>
    obtain ⟨hv, hvs⟩ := List.forall_mem_cons.1 h
    cases ws with
    | nil => simp
    | cons w ws => simp [hv, ih hvs]

theorem rel_iff_map {o : Option Value} (h : ∀ v ∈ o, ∀ w, P v w ↔ f v = f w) (o' : Option Value) :
    Option.Rel P o o' ↔ o.map f = o'.map f := by
  cases o <;> cases o' <;> simp [h]

end Agrees

theorem exists_mem_of_lookup {ms : Members} {key : String} {v : Value}
    (h : v ∈ ms.reverse.lookup key) : ∃ m ∈ ms, m.2 = v := by
  obtain ⟨before, after, hms, -⟩ := List.lookup_eq_some_iff.1 h
  refine ⟨(key, v), List.mem_reverse.1 ?_, rfl⟩
  rw [hms]
  simp

namespace Value

theorem agrees_arr_iff {vs : List Value}
    (h : ∀ v ∈ vs, ∀ w, v.Agrees w ↔ v.canonical.content = w.canonical.content) (ws : List Value) :
    (Value.arr vs).Agrees (.arr ws) ↔
      (Value.arr vs).canonical.content = (Value.arr ws).canonical.content := by
  have hitems : (Value.arr vs).Agrees (.arr ws) ↔ List.Forall₂ Agrees vs ws :=
    ⟨fun h => by cases h; assumption, .arr⟩
  rw [hitems, forall₂_iff_map h, canonical, canonical, content, content, contentItems_eq_map,
    contentItems_eq_map, canonicalItems_eq_map, canonicalItems_eq_map, List.map_map, List.map_map,
    Value.arr.injEq]
  rfl

theorem agrees_obj_iff {ms : Members}
    (h : ∀ m ∈ ms, ∀ w, m.2.Agrees w ↔ m.2.canonical.content = w.canonical.content) (ns : Members) :
    (Value.obj ms).Agrees (.obj ns) ↔
      (Value.obj ms).canonical.content = (Value.obj ns).canonical.content := by
  have hmembers : (Value.obj ms).Agrees (.obj ns) ↔
      ∀ key, Option.Rel Agrees (ms.reverse.lookup key) (ns.reverse.lookup key) :=
    ⟨fun h => by cases h; assumption, .obj⟩
  have hrel : ∀ key, Option.Rel Agrees (ms.reverse.lookup key) (ns.reverse.lookup key) ↔
      (contentMembers (canonicalMembers ms)).lookup key =
        (contentMembers (canonicalMembers ns)).lookup key := by
    intro key
    rw [lookup_content, lookup_content]
    refine rel_iff_map (fun v hv => ?_) _
    obtain ⟨m, hm, rfl⟩ := exists_mem_of_lookup hv
    exact h m hm
  -- canonical forms are known by what they have under each key
  rw [hmembers, forall_congr' hrel, canonical, canonical, content, content, Value.obj.injEq]
  exact ⟨(canonical_content ms).ext (canonical_content ns), fun h key => by rw [h]⟩

/-- **Values agree** exactly if their canonical forms are equal. -/
theorem agrees_iff (v w : Value) : v.Agrees w ↔ v.canonical.content = w.canonical.content := by
  induction v using Value.induction generalizing w with
  | null =>
    cases w with
    | null => exact iff_of_true .null rfl
    | _ => exact iff_of_false (fun h => by cases h) fun h => by cases h
  | bool b =>
    cases w with
    | bool c => exact ⟨fun h => by cases h; rfl, fun h => by cases h; exact .bool b⟩
    | _ => exact iff_of_false (fun h => by cases h) fun h => by cases h
  | int n =>
    cases w with
    | int m => exact ⟨fun h => by cases h; rfl, fun h => by cases h; exact .int n⟩
    | _ => exact iff_of_false (fun h => by cases h) fun h => by cases h
  | float x =>
    cases w with
    | float y =>
      rw [canonical, canonical, content, content, Value.float.injEq,
        ← Decimal.Binary64.eqv_iff_content]
      exact ⟨fun h => by cases h; assumption, .float⟩
    | _ => exact iff_of_false (fun h => by cases h) fun h => by cases h
  | str s =>
    cases w with
    | str t => exact ⟨fun h => by cases h; rfl, fun h => by cases h; exact .str s⟩
    | _ => exact iff_of_false (fun h => by cases h) fun h => by cases h
  | arr items ih =>
    cases w with
    | arr ws => exact agrees_arr_iff ih ws
    | _ => exact iff_of_false (fun h => by cases h) fun h => by cases h
  | obj members ih =>
    cases w with
    | obj ns => exact agrees_obj_iff ih ns
    | _ => exact iff_of_false (fun h => by cases h) fun h => by cases h

end Value

/-! ## Written values -/

/-- Only floating numbers have signs at their zeros. -/
theorem Value.content_of_floatFree {v : Value} (h : v.FloatFree) : v.content = v := by
  induction v using Value.induction with
  | arr items ih =>
    rw [content, contentItems_eq_map]
    exact congrArg _ ((List.map_congr_left fun v hv => ih v hv (itemsFloatFree_iff.1 h v hv)).trans
      (List.map_id items))
  | obj members ih =>
    rw [content, contentMembers_eq_map]
    have hmembers := List.map_congr_left fun m hm =>
      Prod.ext (x := (m.1, m.2.content)) (y := m) rfl (ih m hm (membersFloatFree_iff.1 h m hm))
    exact congrArg _ (hmembers.trans (List.map_id members))
  | float x => exact h.elim
  | _ => rfl

/-- **Different values are written differently**, if they have no floating numbers. -/
theorem write_inj {l : Layout} (hl : l.Blank) {v w : Value} (hv : v.FloatFree) (hw : w.FloatFree)
    (level : Nat) : v.write l level = w.write l level ↔ v = w := by
  refine ⟨fun h => ?_, fun h => by rw [h]⟩
  have hspells := spells_write hl hv level
  rw [h] at hspells
  exact hspells.denotes.unique (spells_write hl hw level).denotes

end Json

/-! ## Pieces -/

namespace Piece

variable {a b : Piece}

/-- The piece as JSON text with a line for every member. -/
def indented (p : Piece) : String := String.ofList (p.toValue.write .indented 0)

theorem toValue_inj : a.toValue = b.toValue ↔ a = b := by
  obtain ⟨fields, hfields⟩ := a
  obtain ⟨fields', hfields'⟩ := b
  rw [toValue, toValue, Value.obj.injEq, Piece.mk.injEq]

section FloatFree

variable (ha : MembersFloatFree a.fields) (hb : MembersFloatFree b.fields)

include ha hb

/-- Without floating numbers, equal pieces are the same. -/
theorem same_iff_eq : a.same b ↔ a = b := by
  rw [same_iff, Value.content_of_floatFree (v := a.toValue) ha,
    Value.content_of_floatFree (v := b.toValue) hb, toValue_inj]

theorem same_iff_write {l : Layout} (hl : l.Blank) :
    a.same b ↔ a.toValue.write l 0 = b.toValue.write l 0 := by
  rw [same_iff_eq ha hb, write_inj (v := a.toValue) (w := b.toValue) hl ha hb, toValue_inj]

end FloatFree

/-- The piece of an object is equal to that of another exactly if the objects agree. -/
theorem same_ofMembers_iff (ms ns : Members) :
    (ofMembers ms).same (ofMembers ns) ↔ (Value.obj ms).Agrees (.obj ns) := by
  rw [same_iff, Value.agrees_iff]
  rfl

theorem exists_denotes {text : String} {p : Piece} (h : parse text = .ok p) :
    ∃ ms, Denotes text.toList (.obj ms) ∧ p = ofMembers ms := by
  obtain ⟨b, t, b', hb, ⟨ms, ht, -, rfl⟩, hb', htext⟩ :=
    Takes.document (takes_read text.toList.length 126) h
  exact ⟨ms, denotes_iff.2 ⟨b, t, b', hb, ht, hb', htext⟩, rfl⟩

/-- **Equality of pieces is equality of their texts.** Pieces without floating numbers are equal exactly
if they are written the same, with blanks or without, and then they are the same. Pieces that were read,
from texts of their own or from one listing, are equal exactly if their objects agree: the order of
keys, blanks, escapes and members that others have replaced make no difference, and all else does. -/
theorem same_written :
    (∀ a b : Piece, MembersFloatFree a.fields → MembersFloatFree b.fields →
      (a.same b ↔ a.compact = b.compact) ∧ (a.same b ↔ a.indented = b.indented) ∧
        (a.same b ↔ a = b)) ∧
    (∀ (text text' : String) (a b : Piece), parse text = .ok a → parse text' = .ok b →
      ∃ ms ns, Denotes text.toList (.obj ms) ∧ Denotes text'.toList (.obj ns) ∧
        (a.same b ↔ (Value.obj ms).Agrees (.obj ns))) ∧
    ∀ (text : String) (ps : List Piece), parseList text = .ok ps →
      ∃ objects : List Members, Denotes text.toList (.arr (objects.map .obj)) ∧
        ∀ (i j : Nat) (a b : Piece), ps[i]? = some a → ps[j]? = some b →
          ∃ ms ns, objects[i]? = some ms ∧ objects[j]? = some ns ∧
            (a.same b ↔ (Value.obj ms).Agrees (.obj ns)) := by
  refine ⟨fun a b ha hb => ?_, ?_, ?_⟩
  · rw [compact, compact, indented, indented, Value.compact, Value.compact, String.ofList_inj,
      String.ofList_inj]
    exact ⟨same_iff_write ha hb Layout.blank_compact, same_iff_write ha hb Layout.blank_indented,
      same_iff_eq ha hb⟩
  · intro text text' a b ha hb
    obtain ⟨ms, hms, rfl⟩ := exists_denotes ha
    obtain ⟨ns, hns, rfl⟩ := exists_denotes hb
    exact ⟨ms, ns, hms, hns, same_ofMembers_iff ms ns⟩
  · intro text ps hps
    obtain ⟨objects, ⟨hobjects, -⟩, rfl⟩ := parseList_eq_ok_iff.1 hps
    refine ⟨objects, hobjects, fun i j a b ha hb => ?_⟩
    rw [List.getElem?_map, Option.map_eq_some_iff] at ha hb
    obtain ⟨ms, hms, rfl⟩ := ha
    obtain ⟨ns, hns, rfl⟩ := hb
    exact ⟨ms, ns, hms, hns, same_ofMembers_iff ms ns⟩

/-- A piece with a key twice. -/
def plainText : String :=
  "\x7b\"feel\":\"calm\",\"notes\":\x7b\"k\":[1,null],\"z\":\"\\n\"\x7d,\"feel\":\"A/\"\x7d"

/-- The same piece, its keys in another order and another one of them twice. -/
def variedText : String :=
  " \x7b\"notes\" : \x7b\"z\":\"\\u000A\",\"k\":0.5,\"k\":[ 1 ,null ]\x7d,\n\"feel\":\"\\u0041\\/\"\x7d"

/-- Another piece, with brackets in another place. -/
def nestedText : String :=
  "\x7b\"feel\":\"A/\",\"notes\":\x7b\"k\":[[1],null],\"z\":\"\\n\"\x7d\x7d"

theorem same_written_varied :
    ∃ a b c, parse plainText = .ok a ∧ parse variedText = .ok b ∧ parse nestedText = .ok c ∧
      a.compact = b.compact ∧ a.indented = b.indented ∧ a.compact ≠ c.compact ∧
      ∃ ms ns, Denotes plainText.toList (.obj ms) ∧ Denotes variedText.toList (.obj ns) ∧
        (Value.obj ms).Agrees (.obj ns) := by
  have hread : (match parse plainText, parse variedText, parse nestedText with
      | .ok a, .ok b, .ok c => a.same b && !a.same c && decide (MembersFloatFree a.fields) &&
          decide (MembersFloatFree b.fields) && decide (MembersFloatFree c.fields)
      | _, _, _ => false) = true := by
    decide +kernel
  split at hread
  · next a b c ha hb hc =>
    simp only [Bool.and_eq_true, Bool.not_eq_true', decide_eq_true_eq] at hread
    obtain ⟨⟨⟨⟨hsame, hother⟩, hfreeA⟩, hfreeB⟩, hfreeC⟩ := hread
    obtain ⟨hwritten, hagree, -⟩ := same_written
    obtain ⟨hcompact, hindented, -⟩ := hwritten a b hfreeA hfreeB
    obtain ⟨hcompact', -, -⟩ := hwritten a c hfreeA hfreeC
    obtain ⟨ms, ns, hms, hns, hagrees⟩ := hagree _ _ a b ha hb
    refine ⟨a, b, c, ha, hb, hc, hcompact.1 hsame, hindented.1 hsame, fun h => ?_, ms, ns, hms, hns,
      hagrees.1 hsame⟩
    rw [hcompact'.2 h] at hother
    cases hother
  · cases hread

end Piece

end MusicCatalog
