import MusicCatalog.Proofs.Json.Taken

/-!
# Texts that are accepted

What is spelled in the grammar is read as what it means. Only the room for brackets stands in the
way, so a text is accepted exactly if it stands for a value that is not nested too deeply.

* `reads_unsigned`, `reads_spelled_scalar`: numerals and other scalars;
* **`reads_items`**, **`reads_members`**: the two loops on the text of a list or an object;
* **`reads_spelled`**: any value;
* `document_ok`, `document_blanks`, `document_error`: whole texts;
* `Denotes.unique`, **`Value.parse_eq_ok_iff`**: the texts that stand for a value.
-/

namespace MusicCatalog.Json

open Grammar

variable {α ι σ ν : Type}

/-! ## Scalars -/

theorem Apart.ends {r : List Char} (h : Apart r) (fraction : Option (List Char))
    (exponent : Option (Bool × List Char)) : Numeral.Ends fraction exponent r :=
  ⟨fun c hc => (h c hc).1, fun _ c hc => ⟨(h c hc).2.2.1, (h c hc).2.2.2, fun _ => (h c hc).2.1⟩⟩

/-- A numeral of the grammar is read, behind its sign. -/
theorem reads_unsigned {t : List Char} {x : Numeral} {v : Value} (h : IsUnsigned t x)
    (hv : x.value? = some v) : Reads (numeral x.negative) t (.ok v) := by
  intro rest hr
  have hread := numeral_unsigned h (hr.ends x.fraction x.exponent)
  rw [hv] at hread
  cases hn : numeral x.negative (t ++ rest) with
  | error fault =>
    rw [hn] at hread
    cases hread
  | ok p =>
    rw [hn] at hread
    cases hread
    rfl

theorem exists_digit {t : List Char} {x : Numeral} (h : IsUnsigned t x) :
    ∃ c r, t = c :: r ∧ c.isDigit := by
  cases h with
  | mk hw hf he =>
    obtain ⟨c, cs, rfl⟩ := List.exists_cons_of_ne_nil hw.1.1
    exact ⟨c, _, rfl, hw.1.2 c List.mem_cons_self⟩

theorem front_numeral {c : Char} (hc : c = '-' ∨ c.isDigit) :
    isBlank c = false ∧ c ≠ '[' ∧ c ≠ '{' ∧ c ≠ ']' := by
  refine ⟨?_, ?_, ?_, ?_⟩
  · rw [Bool.eq_false_iff, ne_eq, isBlank_iff]
    rintro (rfl | rfl | rfl | rfl) <;> revert hc <;> decide
  all_goals rintro rfl; revert hc; decide

theorem reads_literal {t : List Char} {k : String} (h : Literal t k) :
    Reads readScalar t (.ok (.str k)) := by
  intro rest _
  obtain ⟨u, rfl, hliteral⟩ := h
  rw [List.cons_append, readScalar, if_pos rfl, hliteral rest]
  rfl

/-- **A scalar is read**, and its text begins with neither a blank nor a bracket. -/
theorem reads_spelled_scalar {t : List Char} {v : Value} (h : Spells t v)
    (harr : ∀ items, v ≠ .arr items) (hobj : ∀ members, v ≠ .obj members) :
    ∃ c r, t = c :: r ∧ (isBlank c = false ∧ c ≠ '[' ∧ c ≠ '{' ∧ c ≠ ']') ∧
      Reads readScalar t (.ok v) := by
  obtain ⟨x, hx, hv⟩ := h
  cases hx with
  | null =>
    cases hv
    exact ⟨_, _, rfl, by decide, fun rest _ => rfl⟩
  | yes =>
    cases hv
    exact ⟨_, _, rfl, by decide, fun rest _ => rfl⟩
  | no =>
    cases hv
    exact ⟨_, _, rfl, by decide, fun rest _ => rfl⟩
  | string hgs =>
    obtain ⟨cs, hcs, rfl⟩ := Option.map_eq_some_iff.1 hv
    have hread := reads_literal (SpellsString.literal ⟨_, cs, hgs, hcs, rfl⟩)
    cases hgs
    exact ⟨_, _, rfl, by decide, hread⟩
  | number hn =>
    rw [Phrase.value?] at hv
    cases hn with
    | unsigned hx hneg =>
      have hread := reads_unsigned hx hv
      obtain ⟨c, r, rfl, hc⟩ := exists_digit hx
      refine ⟨c, r, rfl, front_numeral (.inr hc), fun rest hr => ?_⟩
      rw [List.cons_append, readScalar_digit hc, ← hread rest hr, hneg]
      rfl
    | minus hx hneg =>
      have hread := reads_unsigned hx hv
      rw [hneg] at hread
      exact ⟨_, _, rfl, front_numeral (.inl rfl), hread⟩
  | list =>
    obtain ⟨items, -, rfl⟩ := Option.map_eq_some_iff.1 hv
    exact absurd rfl (harr items)
  | object =>
    obtain ⟨members, -, rfl⟩ := Option.map_eq_some_iff.1 hv
    exact absurd rfl (hobj members)

theorem spells_str_iff {t : List Char} {k : String} : Spells t (.str k) ↔ SpellsString t k := by
  constructor
  · rintro ⟨x, hx, hv⟩
    cases hx with
    | string hgs =>
      obtain ⟨cs, hcs, hk⟩ := Option.map_eq_some_iff.1 hv
      cases hk
      exact ⟨_, cs, hgs, hcs, rfl⟩
    | number => obtain ⟨_, hw⟩ | ⟨_, hx⟩ := Numeral.value?_scalar hv <;> contradiction
    | list => simp [Phrase.value?] at hv
    | object => simp [Phrase.value?] at hv
    | _ => cases hv
  · exact SpellsString.spells

theorem eq_null_of_spells {t : List Char} (h : Spells t .null) : t = ['n', 'u', 'l', 'l'] := by
  obtain ⟨x, hx, hv⟩ := h
  cases hx with
  | null => rfl
  | number => obtain ⟨_, hw⟩ | ⟨_, hx⟩ := Numeral.value?_scalar hv <;> contradiction
  | string => simp [Phrase.value?] at hv
  | list => simp [Phrase.value?] at hv
  | object => simp [Phrase.value?] at hv
  | _ => cases hv

theorem exists_numeral {t : List Char} {x : Numeral} (h : IsNumber t x) :
    ∃ c r, t = c :: r ∧ (c = '-' ∨ c.isDigit) := by
  cases h with
  | unsigned hx =>
    obtain ⟨c, r, rfl, hc⟩ := exists_digit hx
    exact ⟨c, r, rfl, .inr hc⟩
  | minus => exact ⟨_, _, rfl, .inl rfl⟩

theorem Grammar.IsValue.solid {t : List Char} {x : Phrase} (h : IsValue t x) : Solid t := by
  cases h with
  | number hn =>
    obtain ⟨c, r, rfl, hc⟩ := exists_numeral hn
    exact ⟨c, r, rfl, (front_numeral hc).1, (front_numeral hc).2.2.2⟩
  | string hs =>
    obtain ⟨hs⟩ := hs
    exact ⟨_, _, rfl, by decide, by decide⟩
  | _ => exact ⟨_, _, rfl, by decide, by decide⟩

theorem Spells.solid {t : List Char} {v : Value} (h : Spells t v) : Solid t := by
  obtain ⟨x, hx, -⟩ := h
  exact hx.solid

/-! ## Loops -/

theorem Separated.length_le_of_mem {t : List Char} {ts : List (List Char)} {s : List Char}
    (h : Separated ts s) (ht : t ∈ ts) : t.length ≤ s.length := by
  induction ts generalizing s with
  | nil => cases ht
  | cons t' ts ih =>
    cases ts with
    | nil =>
      obtain ⟨b, b', -, -, rfl⟩ := h
      rw [List.mem_singleton.1 ht]
      simp only [List.length_append]
      omega
    | cons t'' ts =>
      obtain ⟨b, b', s', -, -, hs', rfl⟩ := h
      simp only [List.length_append, List.length_cons]
      rcases List.mem_cons.1 ht with rfl | ht
      · omega
      · have := ih hs' ht
        omega

/-- **The loop on the text of a list.** -/
theorem reads_items {P : List Char → ι → Prop} {item : Reader α} {f : ι → Except Reason α}
    {t : List Char} {xs : List ι} {budget : Nat} (h : IsList P t xs)
    (hsolid : ∀ u x, P u x → Solid u) (hb : t.length ≤ budget)
    (hitem : ∀ x ∈ xs, ∀ u, P u x → u.length ≤ t.length → Reads item u (f x)) :
    ∃ s, t = '[' :: s ∧ Reads (readItems item budget true []) s (xs.mapM f) := by
  obtain ⟨ts, s, hts, hs, rfl⟩ := h
  obtain ⟨hlength, htexts⟩ := List.forall₂_iff_zip.1 hts
  have hfst : (ts.zip xs).map Prod.fst = ts := List.map_fst_zip hlength.le
  have hsnd : (ts.zip xs).map Prod.snd = xs := List.map_snd_zip hlength.ge
  have hread : ∀ p ∈ ts.zip xs, Reads item p.1 (f p.2) := by
    rintro ⟨u, x⟩ hp
    have hu := hs.length_le_of_mem (List.of_mem_zip hp).1
    refine hitem x (List.of_mem_zip hp).2 u (htexts hp) (hu.trans ?_)
    simp only [List.length_cons, List.length_append]
    omega
  refine ⟨s ++ [']'], rfl, ?_⟩
  rw [← hsnd, List.mapM_map]
  refine reads_readItems (fun p hp => hsolid p.1 p.2 (htexts hp)) hread ?_ ?_
  · rwa [hfst]
  · have hle := hs.length_le
    rw [List.length_zip, ← hlength, Nat.min_self]
    simp only [List.length_cons, List.length_append, List.length_nil] at hb
    omega

/-- The keys of members, apart from what stands behind them. -/
theorem exists_keys {P : List Char → ν → Prop} {ts : List (List Char)} {ms : List (String × ν)}
    (h : List.Forall₂ (KeyedBy P) ts ms) :
    ∃ xs : List (List Char × List Char × String × ν),
      ts = xs.map (fun x => x.1 ++ x.2.1) ∧ ms = xs.map (fun x => x.2.2) ∧
        ∀ x ∈ xs, SpellsString x.1 x.2.2.1 ∧ BehindColon P x.2.1 x.2.2.2 := by
  induction h with
  | nil => exact ⟨[], rfl, rfl, List.forall_mem_nil _⟩
  | @cons t m ts ms h _ ih =>
    obtain ⟨k, u, hk, hu, rfl⟩ := h
    obtain ⟨xs, rfl, rfl, hxs⟩ := ih
    exact ⟨(k, u, m) :: xs, rfl, rfl, List.forall_mem_cons.2 ⟨⟨hk, hu⟩, hxs⟩⟩

/-- **The loop on the text of an object.** -/
theorem reads_members {P : List Char → ν → Prop} {member : σ → String → Reader σ}
    {g : σ → String × ν → Except Reason σ} {t : List Char} {ms : List (String × ν)} {budget : Nat}
    (h : IsObject P t ms) (hb : t.length ≤ budget)
    (hmember : ∀ m ∈ ms, ∀ u, BehindColon P u m.2 → u.length ≤ t.length →
      ∀ state, Reads (member state m.1) u (g state m)) (state : σ) :
    ∃ s, t = '{' :: s ∧ Reads (readMembers member budget true state) s (ms.foldlM g state) := by
  obtain ⟨ts, s, hts, hs, rfl⟩ := h
  obtain ⟨xs, rfl, rfl, hxs⟩ := exists_keys hts
  have hread : ∀ x ∈ xs, ∀ state, Reads (member state x.2.2.1) x.2.1 (g state x.2.2) := by
    intro x hx
    have hle := hs.length_le_of_mem (List.mem_map_of_mem hx)
    refine hmember x.2.2 (List.mem_map_of_mem hx) x.2.1 (hxs x hx).2 ?_
    simp only [List.length_append, List.length_cons] at hle ⊢
    omega
  refine ⟨s ++ ['}'], rfl, ?_⟩
  rw [List.foldlM_map]
  refine reads_readMembers (fun x hx => (hxs x hx).1.literal) hread hs ?_ state
  have hle := hs.length_le
  rw [List.length_map] at hle
  simp only [List.length_cons, List.length_append, List.length_nil] at hb
  omega

/-- What stands behind a key is read, if the value is. -/
theorem BehindColon.reads {P : List Char → ν → Prop} {value : Reader α} {t : List Char} {v : ν}
    {o : Except Reason α} (h : BehindColon P t v) (hvalue : PassesBlanks value)
    (hread : ∀ u, P u v → u.length ≤ t.length → Reads value u o) :
    Reads (keyed value) t o := by
  obtain ⟨b, b', u, hb, hb', hu, rfl⟩ := h
  have hlength : u.length ≤ (b ++ ':' :: (b' ++ u)).length := by
    simp only [List.length_append, List.length_cons]
    omega
  have hkeyed := reads_keyed hvalue hb hb' (hread u hu hlength)
  rwa [List.append_assoc] at hkeyed

/-! ## Any value -/

theorem passesBlanks_valueAround (budget : Nat) (inner : Option (Reader Value)) :
    PassesBlanks (valueAround budget inner) := by
  intro s
  rw [valueAround, valueAround, skipBlanks_skipBlanks]

theorem passesBlanks_readValue (budget room : Nat) : PassesBlanks (readValue budget room) := by
  cases room <;> exact passesBlanks_valueAround budget _

/-- A text without brackets at its front is read as a scalar. -/
theorem readValue_scalar {c : Char} (hc : isBlank c = false) (hlist : c ≠ '[') (hobj : c ≠ '{')
    (budget room : Nat) (r : List Char) : readValue budget room (c :: r) = readScalar (c :: r) := by
  cases room <;> simp [readValue, valueAround, skipBlanks_cons hc, hlist, hobj]

/-- The members of an object are gathered, as far as there is room for the brackets of their
values. -/
theorem reads_gathered {budget : Nat} (room : Nat) {t : List Char} {ms : Members}
    (h : Spells t (.obj ms)) (hb : t.length ≤ budget)
    (hread : ∀ m ∈ ms, ∀ u, Spells u m.2 → u.length ≤ budget →
      Reads (readValue budget room) u (m.2.within room)) :
    ∃ s, t = '{' :: s ∧ Reads (readMembers (gather (readValue budget room)) budget true []) s
      (if membersDepth ms ≤ room then .ok ms.reverse else .error .tooDeep) := by
  rw [← foldlM_gathered]
  refine reads_members (spells_obj_iff_isObject.1 h) hb (fun m hm u hu hlength before => ?_) []
  have hkeyed := hu.reads (passesBlanks_readValue budget room) fun w hw hle =>
    hread m hm w hw ((hle.trans hlength).trans hb)
  exact reads_gather hkeyed before m.1

/-- **A value is read from its spelling**, if there is room for its brackets. -/
theorem reads_spelled {budget : Nat} (v : Value) {t : List Char} (h : Spells t v) (room : Nat)
    (hb : t.length ≤ budget) : Reads (readValue budget room) t (v.within room) := by
  induction v using Value.induction generalizing t room with
  | arr items ih =>
    cases room with
    | zero =>
      obtain ⟨ts, s, -, -, rfl⟩ := spells_arr_iff.1 h
      intro rest _
      rw [Value.within, if_neg (by rw [Value.depth]; omega)]
      rfl
    | succ room =>
      obtain ⟨s, rfl, hread⟩ := reads_items (spells_arr_iff.1 h) (fun _ _ hu => hu.solid) hb
        fun v hv u hu hlength => ih v hv hu room (hlength.trans hb)
      intro rest hr
      change reasoned (readItems (readValue budget room) budget true [] (s ++ rest) >>= fun p =>
        Except.ok (Value.arr p.1, p.2)) = _
      rw [hread.bind hr, mapM_within, Value.within, Value.depth, Nat.add_comm]
      by_cases hroom : itemsDepth items ≤ room
      · rw [if_pos (itemsDepth_le_iff.1 hroom), if_pos (Nat.succ_le_succ hroom)]
        rfl
      · rw [if_neg fun h => hroom (itemsDepth_le_iff.2 h),
          if_neg fun h => hroom (Nat.le_of_succ_le_succ h)]
        rfl
  | obj members ih =>
    cases room with
    | zero =>
      obtain ⟨ts, s, -, -, rfl⟩ := spells_obj_iff.1 h
      intro rest _
      rw [Value.within, if_neg (by rw [Value.depth]; omega)]
      rfl
    | succ room =>
      obtain ⟨s, rfl, hread⟩ := reads_gathered room h hb fun m hm u hu hlength =>
        ih m hm hu room hlength
      intro rest hr
      change reasoned (readMembers (gather (readValue budget room)) budget true [] (s ++ rest) >>=
        fun p => Except.ok (Value.obj p.1.reverse, p.2)) = _
      rw [hread.bind hr, Value.within, Value.depth, Nat.add_comm]
      by_cases hroom : membersDepth members ≤ room
      · rw [if_pos hroom, if_pos (Nat.succ_le_succ hroom)]
        change Except.ok (Value.obj members.reverse.reverse, rest) = _
        rw [List.reverse_reverse]
        rfl
      · rw [if_neg hroom, if_neg fun h => hroom (Nat.le_of_succ_le_succ h)]
        rfl
  | _ =>
    obtain ⟨c, r, rfl, ⟨hblank, hlist, hobj, -⟩, hread⟩ :=
      reads_spelled_scalar h (by simp) (by simp)
    rw [Value.within, Value.depth, if_pos (Nat.zero_le _)]
    intro rest hr
    rw [← hread rest hr, List.cons_append, readValue_scalar hblank hlist hobj]

/-! ## Values of one kind -/

theorem passesBlanks_stringValue : PassesBlanks stringValue := by
  intro s
  rw [stringValue, stringValue, skipBlanks_skipBlanks]

theorem Literal.reads_stringValue {t : List Char} {k : String} (h : Literal t k) :
    Reads stringValue t (.ok k) := by
  intro rest _
  obtain ⟨u, rfl, hliteral⟩ := h
  change reasoned (readString (u ++ rest)) = _
  rw [hliteral rest]
  rfl

theorem passesBlanks_listOf (item : Nat → Reader α) (budget room : Nat) :
    PassesBlanks (listOf item budget room) := by
  intro s
  rw [listOf, listOf, skipBlanks_skipBlanks]

/-- A list of one kind takes a level of room for its brackets. -/
theorem IsList.reads {P : List Char → ι → Prop} {item : Nat → Reader α} {f : ι → Except Reason α}
    {t : List Char} {xs : List ι} {budget room : Nat} (h : IsList P t xs)
    (hsolid : ∀ u x, P u x → Solid u) (hb : t.length ≤ budget)
    (hitem : ∀ x ∈ xs, ∀ u, P u x → u.length ≤ t.length → Reads (item room) u (f x)) :
    Reads (listOf item budget (room + 1)) t (xs.mapM f) := by
  obtain ⟨s, rfl, hread⟩ := reads_items h hsolid hb hitem
  exact hread

/-- An object takes a level of room for its braces. -/
theorem IsObject.reads {P : List Char → ν → Prop} {expected : String}
    {member : Nat → σ → String → Reader σ} {g : σ → String × ν → Except Reason σ} {t : List Char}
    {ms : List (String × ν)} {budget room : Nat} (h : IsObject P t ms) (hb : t.length ≤ budget)
    (hmember : ∀ m ∈ ms, ∀ u, BehindColon P u m.2 → u.length ≤ t.length →
      ∀ state, Reads (member room state m.1) u (g state m)) (start : σ) :
    Reads (objectOf expected member start budget (room + 1)) t (ms.foldlM g start) := by
  obtain ⟨s, rfl, hread⟩ := reads_members h hb hmember start
  exact hread

theorem IsObject.reads_zero {P : List Char → ν → Prop} {expected : String}
    {member : Nat → σ → String → Reader σ} {t : List Char} {ms : List (String × ν)} {budget : Nat}
    (h : IsObject P t ms) (start : σ) :
    Reads (objectOf expected member start budget 0) t (.error .tooDeep) := by
  obtain ⟨ts, s, -, -, rfl⟩ := h
  exact fun rest _ => rfl

/-! ## Whole texts -/

section Document

variable {value : Nat → Nat → Reader α} {text : String}

theorem document_eq_ok {a : α} {rest : List Char}
    (h : reasoned (value text.toList.length maxDepth text.toList) = .ok (a, rest))
    (hrest : Blanks rest) : document value text = .ok a := by
  cases hv : value text.toList.length maxDepth text.toList with
  | error fault =>
    rw [hv] at h
    cases h
  | ok p =>
    rw [hv] at h
    cases h
    have hskip : skipBlanks rest = [] := by simpa using skipBlanks_append (s := []) hrest
    have halone : alone (value text.toList.length maxDepth) text.toList = .ok a := by
      refine bind_eq_ok.2 ⟨_, hv, ?_⟩
      dsimp only
      rw [hskip]
    simp only [document, halone]

/-- A text is what its reader makes of it. -/
theorem document_ok {a : α} (h : Reads (value text.toList.length maxDepth) text.toList (.ok a)) :
    document value text = .ok a := by
  have hread := h [] apart_nil
  rw [List.append_nil] at hread
  exact document_eq_ok hread (List.forall_mem_nil _)

/-- Blanks around a text make no difference. -/
theorem document_blanks {a : α} {b t b' : List Char}
    (hvalue : PassesBlanks (value text.toList.length maxDepth))
    (h : Reads (value text.toList.length maxDepth) t (.ok a)) (hb : Blanks b) (hb' : Blanks b')
    (htext : text.toList = b ++ (t ++ b')) : document value text = .ok a := by
  have hread := h b' (by simpa using apart_nil.blanks_append hb')
  rw [← hvalue.append hb, ← htext] at hread
  exact document_eq_ok hread hb'

/-- A text that its reader refuses is refused for the same reason. -/
theorem document_error {reason : Reason}
    (h : Reads (value text.toList.length maxDepth) text.toList (.error reason)) :
    ∃ place, document value text = .error ⟨reason, place⟩ := by
  have hread := h [] apart_nil
  rw [List.append_nil] at hread
  cases hv : value text.toList.length maxDepth text.toList with
  | error fault =>
    rw [hv] at hread
    cases hread
    have halone : alone (value text.toList.length maxDepth) text.toList = .error fault := by
      rw [alone, hv]
      rfl
    refine ⟨fault.place text.toList, ?_⟩
    simp only [document, halone]
    rfl
  | ok p =>
    rw [hv] at hread
    cases hread

end Document

theorem denotes_iff {s : List Char} {v : Value} :
    Denotes s v ↔ ∃ b t b', Blanks b ∧ Spells t v ∧ Blanks b' ∧ s = b ++ (t ++ b') := by
  constructor
  · rintro ⟨x, ⟨hb, ht, hb'⟩, hv⟩
    exact ⟨_, _, _, hb, ⟨x, ht, hv⟩, hb', rfl⟩
  · rintro ⟨b, t, b', hb, ⟨x, ht, hv⟩, hb', rfl⟩
    exact ⟨x, .mk hb ht hb', hv⟩

/-- A spelling is a text without blanks around it. -/
theorem Spells.denotes {t : List Char} {v : Value} (h : Spells t v) : Denotes t v :=
  denotes_iff.2 ⟨[], t, [], blanks_nil, h, blanks_nil, by simp⟩

/-- A text that stands for a value is read as it, and only blanks are left. -/
theorem Denotes.exists_read {s : List Char} {v : Value} {room : Nat} (h : Denotes s v)
    (hdepth : v.depth ≤ room) :
    ∃ rest, Blanks rest ∧ reasoned (readValue s.length room s) = .ok (v, rest) := by
  obtain ⟨b, t, b', hb, ht, hb', htext⟩ := denotes_iff.1 h
  have hlength : t.length ≤ s.length := by
    rw [htext, List.length_append, List.length_append]
    omega
  have hread := reads_spelled v ht room hlength b' (by simpa using apart_nil.blanks_append hb')
  rw [Value.within, if_pos hdepth, ← (passesBlanks_readValue _ _).append hb, ← htext] at hread
  exact ⟨b', hb', hread⟩

/-- A text stands for one value at most. -/
theorem Denotes.unique {s : List Char} {v u : Value} (hv : Denotes s v) (hu : Denotes s u) :
    v = u := by
  obtain ⟨_, -, hread⟩ := hv.exists_read (Nat.le_max_left v.depth u.depth)
  obtain ⟨_, -, hread'⟩ := hu.exists_read (Nat.le_max_right v.depth u.depth)
  rw [hread] at hread'
  exact congrArg Prod.fst (Except.ok.inj hread')

/-- **A text is accepted** exactly if it stands for a value that is not nested too deeply. -/
theorem Value.parse_eq_ok_iff {text : String} {v : Value} :
    Value.parse text = .ok v ↔ Denotes text.toList v ∧ v.depth ≤ maxDepth := by
  constructor
  · intro h
    obtain ⟨b, t, b', hb, ⟨ht, hdepth⟩, hb', htext⟩ :=
      Takes.document (takes_readValue text.toList.length maxDepth) h
    exact ⟨denotes_iff.2 ⟨b, t, b', hb, ht, hb', htext⟩, hdepth⟩
  · rintro ⟨h, hdepth⟩
    obtain ⟨rest, hrest, hread⟩ := h.exists_read hdepth
    exact document_eq_ok hread hrest

end MusicCatalog.Json
