import Mathlib.Data.List.Induction
import Mathlib.Tactic.SplitIfs
import MusicCatalog.CommandLine
import MusicCatalog.Proofs.Except

/-!
# What arguments say

The arguments of a command are read from left to right with a draft that fills up. Here they are taken
apart first: each says some words, and the words of all of them settle the options.

* `Word`, `Draft.settle`: an option with its value, or a switch, and what it settles;
* `Letters`, `Says`, `Spells`: what one argument says, and what all of them say;
* **`readArguments_eq_ok`**: reading is settling the words that are spelt;
* `Draft.Holds`, `Draft.settle_eq_ok_iff`: the draft of some words;
* `Options.Chosen`, **`Options.ofArguments_eq_ok`**: the options that words choose are those that the
  arguments stand for.
-/

namespace MusicCatalog.CommandLine

/-! ## Words -/

/-- One thing that arguments say. -/
inductive Word where
  | given (s : Setting) (value : String)
  | on (s : Switch)
deriving DecidableEq

/-- Settles a word. -/
def Draft.settle (d : Draft) : Word → Except Stop Draft
  | .given s value => d.give value s
  | .on s => d.turn s

/-- The letters after one dash, their words, and the option that waits for the next argument. -/
inductive Letters : List Char → List Word → Option Setting → Prop
  | nil : Letters [] [] none
  | switch {c : Char} {r : List Char} {s : Switch} {words : List Word} {waiting : Option Setting}
    (hc : shortFlag? c = some (.switch s)) (hr : Letters r words waiting) :
    Letters (c :: r) (.on s :: words) waiting
  | wait {c : Char} {s : Setting} (hc : shortFlag? c = some (.setting s)) : Letters [c] [] (some s)
  | equals {c : Char} {s : Setting} (hc : shortFlag? c = some (.setting s)) (value : List Char) :
    Letters (c :: '=' :: value) [.given s (String.ofList value)] none
  | value {c e : Char} {s : Setting} (hc : shortFlag? c = some (.setting s)) (he : e ≠ '=')
    (value : List Char) : Letters (c :: e :: value) [.given s (String.ofList (e :: value))] none

/-- The name after two dashes, its word, and the option that waits for the next argument. -/
inductive Name : List Char → List Word → Option Setting → Prop
  | switch {name : String} {s : Switch} (hname : longFlag? name = some (.switch s)) :
    Name name.toList [.on s] none
  | wait {name : String} {s : Setting} (hname : longFlag? name = some (.setting s)) :
    Name name.toList [] (some s)
  | equals {name : String} {s : Setting} (hname : longFlag? name = some (.setting s))
    (value : List Char) : Name (name.toList ++ '=' :: value) [.given s (String.ofList value)] none

/-- An argument, its words, and the option that waits for the next argument. -/
inductive Says : List Char → List Word → Option Setting → Prop
  | name {text : List Char} {words : List Word} {waiting : Option Setting}
    (h : Name text words waiting) : Says ('-' :: '-' :: text) words waiting
  | letters {c : Char} {r : List Char} {words : List Word} {waiting : Option Setting}
    (h : Letters (c :: r) words waiting) : Says ('-' :: c :: r) words waiting

/-- Arguments and their words, behind an option that waits for its value, or behind none. After two
dashes there is nothing more. -/
inductive Spells : Option Setting → List String → List Word → Prop
  | nil : Spells none [] []
  | dashes : Spells none ["--"] []
  | option {a : String} {rest : List String} {words words' : List Word} {waiting : Option Setting}
    (ha : Says a.toList words waiting) (hrest : Spells waiting rest words') :
    Spells none (a :: rest) (words ++ words')
  | value {s : Setting} {a : String} {rest : List String} {words : List Word} (ha : mayBeValue a)
    (hrest : Spells none rest words) : Spells (some s) (a :: rest) (.given s a :: words)

/-! ## Reading -/

section Reading

variable {d d' : Draft} {waiting : Option Setting}

theorem settle_cons_eq_ok {u : Word} {words : List Word} :
    (u :: words).foldlM Draft.settle d = .ok d' ↔
      ∃ next, d.settle u = .ok next ∧ words.foldlM Draft.settle next = .ok d' := by
  rw [List.foldlM_cons, bind_eq_ok]

theorem settle_append_eq_ok {words words' : List Word} :
    (words ++ words').foldlM Draft.settle d = .ok d' ↔
      ∃ next, words.foldlM Draft.settle d = .ok next ∧ words'.foldlM Draft.settle next = .ok d' := by
  rw [List.foldlM_append, bind_eq_ok]

theorem settle_singleton_eq_ok {u : Word} :
    [u].foldlM Draft.settle d = .ok d' ↔ d.settle u = .ok d' := by
  simp

/-- **Letters** are read as the words that they say. -/
theorem readLetters_eq_ok {cs : List Char} :
    readLetters d cs = .ok (d', waiting) ↔
      ∃ words, Letters cs words waiting ∧ words.foldlM Draft.settle d = .ok d' := by
  constructor
  · intro h
    induction cs generalizing d with
    | nil =>
      cases h
      exact ⟨[], .nil, rfl⟩
    | cons c r ih =>
      rw [readLetters] at h
      split at h
      · cases h
      · next s hc =>
        obtain ⟨next, hturn, h⟩ := bind_eq_ok.1 h
        obtain ⟨words, hwords, hsettle⟩ := ih h
        exact ⟨_, .switch hc hwords, settle_cons_eq_ok.2 ⟨next, hturn, hsettle⟩⟩
      · next s hc =>
        cases r with
        | nil =>
          cases h
          exact ⟨[], .wait hc, rfl⟩
        | cons e value =>
          obtain ⟨next, hgive, h⟩ := bind_eq_ok.1 h
          cases h
          by_cases he : e = '='
          · rw [if_pos he] at hgive
            subst he
            exact ⟨_, .equals hc value, settle_singleton_eq_ok.2 hgive⟩
          · rw [if_neg he] at hgive
            exact ⟨_, .value hc he value, settle_singleton_eq_ok.2 hgive⟩
  · rintro ⟨words, hwords, hsettle⟩
    induction hwords generalizing d with
    | nil =>
      cases hsettle
      rfl
    | switch hc _ ih =>
      obtain ⟨next, hturn, hsettle⟩ := settle_cons_eq_ok.1 hsettle
      rw [readLetters, hc]
      exact bind_eq_ok.2 ⟨next, hturn, ih hsettle⟩
    | wait hc =>
      cases hsettle
      rw [readLetters, hc]
    | equals hc value =>
      rw [readLetters, hc]
      exact bind_eq_ok.2 ⟨d', settle_singleton_eq_ok.1 hsettle, rfl⟩
    | value hc he value =>
      rw [readLetters, hc]
      dsimp only
      rw [if_neg he]
      exact bind_eq_ok.2 ⟨d', settle_singleton_eq_ok.1 hsettle, rfl⟩

/-! ### Names -/

theorem ne_equals_of_longFlag? {name : String} {f : Flag} (h : longFlag? name = some f) :
    ∀ c ∈ name.toList, c ≠ '=' := by
  unfold longFlag? at h
  split at h
  case h_10 => cases h
  all_goals simp

theorem takeWhile_name {name tail : List Char} (hname : ∀ c ∈ name, c ≠ '=')
    (htail : ∀ c ∈ tail.head?, c = '=') : (name ++ tail).takeWhile (· ≠ '=') = name := by
  rw [List.takeWhile_append_of_pos (by simpa using hname)]
  cases tail with
  | nil => simp
  | cons c tail => simp [htail c rfl]

theorem exists_name (text : List Char) :
    ∃ (name : String) (tail : List Char), text = name.toList ++ tail ∧
      (∀ c ∈ name.toList, c ≠ '=') ∧ ∀ c ∈ tail.head?, c = '=' := by
  refine ⟨String.ofList (text.takeWhile (· ≠ '=')), text.dropWhile (· ≠ '='), ?_, ?_, ?_⟩
  · rw [String.toList_ofList, List.takeWhile_append_dropWhile]
  · intro c hc
    rw [String.toList_ofList] at hc
    simpa using List.all_eq_true.1 List.all_takeWhile c hc
  · intro c hc
    have hfirst := List.head?_dropWhile_not (· ≠ '=') text
    rw [Option.mem_def.1 hc] at hfirst
    simpa using hfirst

/-- What an option with a long name makes of what comes after the name. -/
def readNamed (d : Draft) : Option Flag → List Char → Except Stop (Draft × Option Setting)
  | some (.switch s), [] => do .ok (← d.turn s, none)
  | some (.setting s), [] => .ok (d, some s)
  | some (.setting s), _ :: value => do .ok (← d.give (String.ofList value) s, none)
  | _, _ => .error .usage

theorem readLong_append {name : String} {tail : List Char} (hname : ∀ c ∈ name.toList, c ≠ '=')
    (htail : ∀ c ∈ tail.head?, c = '=') :
    readLong d (name.toList ++ tail) = readNamed d (longFlag? name) tail := by
  unfold readLong
  simp only [takeWhile_name hname htail, String.ofList_toList, List.drop_left]
  rcases longFlag? name with _ | s | s <;> cases tail <;> rfl

theorem readLong_name {name : String} (hname : ∀ c ∈ name.toList, c ≠ '=') :
    readLong d name.toList = readNamed d (longFlag? name) [] := by
  have htail : ∀ c ∈ ([] : List Char).head?, c = '=' := by simp
  simpa using readLong_append hname htail

/-- **A name** is read as the word that it says. -/
theorem readLong_eq_ok {text : List Char} :
    readLong d text = .ok (d', waiting) ↔
      ∃ words, Name text words waiting ∧ words.foldlM Draft.settle d = .ok d' := by
  constructor
  · intro h
    obtain ⟨name, tail, rfl, hname, htail⟩ := exists_name text
    rw [readLong_append hname htail] at h
    rcases hflag : longFlag? name with _ | s | s
    · rw [hflag] at h
      cases tail <;> cases h
    · rw [hflag] at h
      cases tail with
      | nil =>
        cases h
        rw [List.append_nil]
        exact ⟨_, .wait hflag, rfl⟩
      | cons c value =>
        obtain ⟨next, hgive, h⟩ := bind_eq_ok.1 h
        cases h
        obtain rfl := htail c rfl
        exact ⟨_, .equals hflag value, settle_singleton_eq_ok.2 hgive⟩
    · rw [hflag] at h
      cases tail with
      | nil =>
        obtain ⟨next, hturn, h⟩ := bind_eq_ok.1 h
        cases h
        rw [List.append_nil]
        exact ⟨_, .switch hflag, settle_singleton_eq_ok.2 hturn⟩
      | cons c value => cases h
  · rintro ⟨words, hwords, hsettle⟩
    cases hwords with
    | switch hflag =>
      rw [readLong_name (ne_equals_of_longFlag? hflag), hflag]
      exact bind_eq_ok.2 ⟨d', settle_singleton_eq_ok.1 hsettle, rfl⟩
    | wait hflag =>
      cases hsettle
      rw [readLong_name (ne_equals_of_longFlag? hflag), hflag]
      rfl
    | equals hflag value =>
      rw [readLong_append (ne_equals_of_longFlag? hflag) (by simp), hflag]
      exact bind_eq_ok.2 ⟨d', settle_singleton_eq_ok.1 hsettle, rfl⟩

/-! ### Arguments -/

/-- Reads an argument that is an option. -/
def readOption (d : Draft) : List Char → Except Stop (Draft × Option Setting)
  | '-' :: '-' :: text => readLong d text
  | '-' :: c :: r => readLetters d (c :: r)
  | _ => .error .usage

theorem readOption_letters {c : Char} (hc : c ≠ '-') (r : List Char) :
    readOption d ('-' :: c :: r) = readLetters d (c :: r) := by
  rw [readOption.eq_2 _ _ _ hc]

theorem readArguments_option {a : String} (ha : a.toList ≠ ['-', '-']) (rest : List String) :
    readArguments d none (a :: rest) =
      readOption d a.toList >>= fun p => readArguments p.1 p.2 rest := by
  rw [readArguments.eq_def]
  dsimp only
  generalize a.toList = cs at ha ⊢
  split
  · contradiction
  · exact absurd rfl ha
  · rfl
  · rw [readOption_letters (by assumption)]
  · rw [readOption.eq_3 _ _ (by assumption) (by assumption)]
    rfl

theorem readArguments_value (s : Setting) (a : String) (rest : List String) :
    readArguments d (some s) (a :: rest) =
      if mayBeValue a then d.give a s >>= fun d => readArguments d none rest
      else .error .usage := by
  rw [readArguments.eq_def]

/-- No option has an empty name. -/
theorem Name.ne_nil {text : List Char} {words : List Word} (h : Name text words waiting) :
    text ≠ [] := by
  have hempty : ∀ {name : String} {f : Flag}, longFlag? name = some f → name.toList ≠ [] := by
    intro name f hname hnil
    rw [String.toList_eq_nil_iff.1 hnil] at hname
    cases hname
  cases h with
  | switch hname => exact hempty hname
  | wait hname => exact hempty hname
  | equals hname value => simp

/-- No option has a dash for its letter. -/
theorem Letters.ne_dash {c : Char} {r : List Char} {words : List Word}
    (h : Letters (c :: r) words waiting) : c ≠ '-' := by
  rintro rfl
  cases h <;> contradiction

theorem Says.ne_dashes {cs : List Char} {words : List Word} (h : Says cs words waiting) :
    cs ≠ ['-', '-'] := by
  rintro rfl
  cases h with
  | name h => exact h.ne_nil rfl
  | letters h => exact h.ne_dash rfl

/-- **An option** is read as the words that it says. -/
theorem readOption_eq_ok {cs : List Char} :
    readOption d cs = .ok (d', waiting) ↔
      ∃ words, Says cs words waiting ∧ words.foldlM Draft.settle d = .ok d' := by
  constructor
  · intro h
    unfold readOption at h
    split at h
    · obtain ⟨words, hwords, hsettle⟩ := readLong_eq_ok.1 h
      exact ⟨words, .name hwords, hsettle⟩
    · obtain ⟨words, hwords, hsettle⟩ := readLetters_eq_ok.1 h
      exact ⟨words, .letters hwords, hsettle⟩
    · cases h
  · rintro ⟨words, hwords, hsettle⟩
    cases hwords with
    | name h => exact readLong_eq_ok.2 ⟨words, h, hsettle⟩
    | letters h =>
      rw [readOption_letters h.ne_dash]
      exact readLetters_eq_ok.2 ⟨words, h, hsettle⟩

/-- **Reading arguments** is settling the words that they spell, one after another. -/
theorem readArguments_eq_ok {arguments : List String} :
    readArguments d waiting arguments = .ok d' ↔
      ∃ words, Spells waiting arguments words ∧ words.foldlM Draft.settle d = .ok d' := by
  constructor
  · intro h
    induction arguments generalizing d waiting with
    | nil =>
      rw [readArguments] at h
      split_ifs at h with hwaiting
      obtain rfl := Option.not_isSome_iff_eq_none.1 hwaiting
      exact ⟨[], .nil, h⟩
    | cons a rest ih =>
      cases waiting with
      | some s =>
        rw [readArguments_value] at h
        split_ifs at h with ha
        obtain ⟨next, hgive, h⟩ := bind_eq_ok.1 h
        obtain ⟨words, hwords, hsettle⟩ := ih h
        exact ⟨_, .value ha hwords, settle_cons_eq_ok.2 ⟨next, hgive, hsettle⟩⟩
      | none =>
        by_cases ha : a.toList = ['-', '-']
        · obtain rfl : a = "--" := String.toList_injective ha
          cases rest with
          | nil => exact ⟨[], .dashes, h⟩
          | cons b rest => cases h
        · rw [readArguments_option ha] at h
          obtain ⟨⟨next, waiting⟩, hoption, h⟩ := bind_eq_ok.1 h
          obtain ⟨words, hwords, hsettle⟩ := readOption_eq_ok.1 hoption
          obtain ⟨words', hwords', hsettle'⟩ := ih h
          exact ⟨_, .option hwords hwords', settle_append_eq_ok.2 ⟨next, hsettle, hsettle'⟩⟩
  · rintro ⟨words, hwords, hsettle⟩
    induction hwords generalizing d with
    | nil => exact hsettle
    | dashes => exact hsettle
    | option ha _ ih =>
      obtain ⟨next, hwords, hsettle⟩ := settle_append_eq_ok.1 hsettle
      rw [readArguments_option ha.ne_dashes]
      exact bind_eq_ok.2 ⟨_, readOption_eq_ok.2 ⟨_, ha, hwords⟩, ih hsettle⟩
    | value ha _ ih =>
      obtain ⟨next, hgive, hsettle⟩ := settle_cons_eq_ok.1 hsettle
      rw [readArguments_value, if_pos ha]
      exact bind_eq_ok.2 ⟨next, hgive, ih hsettle⟩

end Reading

/-! ## Drafts -/

/-- The values that are given to an option. -/
def valuesOf (s : Setting) (words : List Word) : List String :=
  words.filterMap fun
    | .given t value => if t = s then some value else none
    | .on _ => none

/-- How often a switch is turned on. -/
def turnsOf (s : Switch) (words : List Word) : Nat := words.count (.on s)

section Concat

variable (words : List Word)

@[simp] theorem valuesOf_given (s t : Setting) (value : String) :
    valuesOf s (words ++ [.given t value]) =
      if t = s then valuesOf s words ++ [value] else valuesOf s words := by
  rw [valuesOf, List.filterMap_append]
  by_cases h : t = s <;> simp [h, valuesOf]

@[simp] theorem valuesOf_on (s : Setting) (t : Switch) :
    valuesOf s (words ++ [.on t]) = valuesOf s words := by
  simp [valuesOf]

@[simp] theorem turnsOf_given (s : Switch) (t : Setting) (value : String) :
    turnsOf s (words ++ [.given t value]) = turnsOf s words := by
  simp [turnsOf]

@[simp] theorem turnsOf_on (s t : Switch) :
    turnsOf s (words ++ [.on t]) = if t = s then turnsOf s words + 1 else turnsOf s words := by
  by_cases h : t = s <;> simp [turnsOf, h]

end Concat

section Settled

variable {α : Type} {read : String → Option α} {values : List String} {value : String}
  {a settled : Option α}

/-- What is settled by the values of an option that may be given once. -/
def Settled (read : String → Option α) (values : List String) : Option α → Prop
  | none => values = []
  | some a => ∃ value, values = [value] ∧ read value = some a

theorem once_eq_ok {value : Option α} :
    Draft.once settled value = .ok a ↔ settled = none ∧ a.isSome ∧ value = a := by
  unfold Draft.once
  cases settled <;> cases value <;> cases a <;> simp

theorem settled_nil : Settled read [] a ↔ a = none := by
  cases a <;> simp [Settled]

theorem settled_concat :
    Settled read (values ++ [value]) a ↔ values = [] ∧ a.isSome ∧ read value = a := by
  cases a with
  | none => simp [Settled]
  | some a =>
    constructor
    · rintro ⟨v, hvalues, hread⟩
      obtain ⟨rfl, rfl⟩ := List.append_singleton_inj.1 (hvalues.trans (List.nil_append [v]).symm)
      exact ⟨rfl, rfl, hread⟩
    · rintro ⟨rfl, -, hread⟩
      exact ⟨value, rfl, hread⟩

/-- A further value settles an option only if none has before. -/
theorem Settled.once (h : Settled read values settled)
    (honce : Draft.once settled (read value) = .ok a) : Settled read (values ++ [value]) a := by
  obtain ⟨rfl, ha, hread⟩ := once_eq_ok.1 honce
  exact settled_concat.2 ⟨h, ha, hread⟩

theorem Settled.of_concat (h : Settled read (values ++ [value]) a) :
    Settled read values none ∧ Draft.once none (read value) = .ok a := by
  obtain ⟨hvalues, ha, hread⟩ := settled_concat.1 h
  exact ⟨hvalues, once_eq_ok.2 ⟨rfl, ha, hread⟩⟩

end Settled

/-- A path that is not empty. -/
def path? (value : String) : Option String := if value.isEmpty then none else some value

/-- The draft holds what the words say, and nothing else. -/
structure Draft.Holds (words : List Word) (d : Draft) : Prop where
  output : Settled path? (valuesOf .output words) d.output
  moods : d.moods = valuesOf .mood words
  limit : Settled count? (valuesOf .limit words) d.limit
  free : Settled count? (valuesOf .free words) d.free
  baseUrl : Settled some (valuesOf .baseUrl words) d.baseUrl
  downloadBase : Settled some (valuesOf .downloadBase words) d.downloadBase
  matchByEquality : turnsOf .matchByEquality words = d.matchByEquality.toNat
  verbose : turnsOf .verbose words = d.verbose.toNat
  help : turnsOf .help words = 0

namespace Draft

variable {words : List Word} {u : Word} {d d' : Draft}

theorem turn_matchByEquality :
    d.turn .matchByEquality = .ok d' ↔
      d.matchByEquality = false ∧ d' = { d with matchByEquality := true } := by
  simp only [turn]
  cases d.matchByEquality <;> simp [eq_comm]

theorem turn_verbose :
    d.turn .verbose = .ok d' ↔ d.verbose = false ∧ d' = { d with verbose := true } := by
  simp only [turn]
  cases d.verbose <;> simp [eq_comm]

/-- A word that can be settled is held besides those before it. -/
theorem Holds.settle (h : d.Holds words) (hsettle : d.settle u = .ok d') :
    d'.Holds (words ++ [u]) := by
  -- the word has to do with one field; for the others nothing changes
  obtain ⟨houtput, hmoods, hlimit, hfree, hbase, hdownloads, hequality, hverbose, hhelp⟩ := h
  cases u with
  | given s value =>
    cases s with
    | output =>
      obtain ⟨_, honce, hrest⟩ := bind_eq_ok.1 hsettle
      cases hrest
      have hsettled := houtput.once honce
      constructor <;> simp [*]
    | mood =>
      cases hsettle
      constructor <;> simp [*]
    | limit =>
      obtain ⟨_, honce, hrest⟩ := bind_eq_ok.1 hsettle
      cases hrest
      have hsettled := hlimit.once honce
      constructor <;> simp [*]
    | free =>
      obtain ⟨_, honce, hrest⟩ := bind_eq_ok.1 hsettle
      cases hrest
      have hsettled := hfree.once honce
      constructor <;> simp [*]
    | baseUrl =>
      obtain ⟨_, honce, hrest⟩ := bind_eq_ok.1 hsettle
      cases hrest
      have hsettled := hbase.once honce
      constructor <;> simp [*]
    | downloadBase =>
      obtain ⟨_, honce, hrest⟩ := bind_eq_ok.1 hsettle
      cases hrest
      have hsettled := hdownloads.once honce
      constructor <;> simp [*]
  | on s =>
    cases s with
    | matchByEquality =>
      obtain ⟨hoff, rfl⟩ := turn_matchByEquality.1 hsettle
      constructor <;> simp [*]
    | verbose =>
      obtain ⟨hoff, rfl⟩ := turn_verbose.1 hsettle
      constructor <;> simp [*]
    | help => cases hsettle

/-- What holds words has settled the last of them after the others. -/
theorem Holds.of_concat (h : d'.Holds (words ++ [u])) :
    ∃ d : Draft, d.Holds words ∧ d.settle u = .ok d' := by
  obtain ⟨houtput, hmoods, hlimit, hfree, hbase, hdownloads, hequality, hverbose, hhelp⟩ := h
  cases u with
  | given s value =>
    simp only [valuesOf_given, turnsOf_given] at *
    cases s with
    | output =>
      obtain ⟨hbefore, honce⟩ := houtput.of_concat
      refine ⟨{ d' with output := .none }, ?_, bind_eq_ok.2 ⟨_, honce, rfl⟩⟩
      constructor <;> assumption
    | mood =>
      refine ⟨{ d' with moods := valuesOf .mood words }, ?_, ?_⟩
      · constructor <;> first | rfl | assumption
      · exact congrArg (fun moods => Except.ok { d' with moods }) hmoods.symm
    | limit =>
      obtain ⟨hbefore, honce⟩ := hlimit.of_concat
      refine ⟨{ d' with limit := .none }, ?_, bind_eq_ok.2 ⟨_, honce, rfl⟩⟩
      constructor <;> assumption
    | free =>
      obtain ⟨hbefore, honce⟩ := hfree.of_concat
      refine ⟨{ d' with free := .none }, ?_, bind_eq_ok.2 ⟨_, honce, rfl⟩⟩
      constructor <;> assumption
    | baseUrl =>
      obtain ⟨hbefore, honce⟩ := hbase.of_concat
      refine ⟨{ d' with baseUrl := .none }, ?_, bind_eq_ok.2 ⟨_, honce, rfl⟩⟩
      constructor <;> assumption
    | downloadBase =>
      obtain ⟨hbefore, honce⟩ := hdownloads.of_concat
      refine ⟨{ d' with downloadBase := .none }, ?_, bind_eq_ok.2 ⟨_, honce, rfl⟩⟩
      constructor <;> assumption
  | on s =>
    simp only [valuesOf_on, turnsOf_on] at *
    cases s with
    | matchByEquality =>
      have hon : d'.matchByEquality = true := by
        rw [← Bool.not_eq_false]
        intro hoff
        simp [hoff] at hequality
      rw [hon] at hequality
      have hturn : turn { d' with matchByEquality := false } .matchByEquality = .ok d' :=
        turn_matchByEquality.2 ⟨rfl, by rw [← hon]⟩
      refine ⟨{ d' with matchByEquality := false }, ?_, hturn⟩
      constructor <;> first | assumption | exact Nat.succ.inj hequality
    | verbose =>
      have hon : d'.verbose = true := by
        rw [← Bool.not_eq_false]
        intro hoff
        simp [hoff] at hverbose
      rw [hon] at hverbose
      have hturn : turn { d' with verbose := false } .verbose = .ok d' :=
        turn_verbose.2 ⟨rfl, by rw [← hon]⟩
      refine ⟨{ d' with verbose := false }, ?_, hturn⟩
      constructor <;> first | assumption | exact Nat.succ.inj hverbose
    | help => simp at hhelp

/-- **The draft of some words** is the one that holds what they say. -/
theorem settle_eq_ok_iff : words.foldlM settle Draft.none = .ok d ↔ d.Holds words := by
  induction words using List.reverseRecOn generalizing d with
  | nil =>
    constructor
    · intro h
      cases h
      constructor <;> rfl
    · rintro ⟨houtput, hmoods, hlimit, hfree, hbase, hdownloads, hequality, hverbose, -⟩
      obtain ⟨output, moods, limit, free, baseUrl, downloadBase, matchByEquality, verbose⟩ := d
      obtain rfl := settled_nil.1 houtput
      obtain rfl := settled_nil.1 hlimit
      obtain rfl := settled_nil.1 hfree
      obtain rfl := settled_nil.1 hbase
      obtain rfl := settled_nil.1 hdownloads
      obtain rfl : moods = [] := hmoods
      cases matchByEquality
      · cases verbose
        · rfl
        · cases hverbose
      · cases hequality
  | append_singleton words u ih =>
    rw [settle_append_eq_ok]
    constructor
    · rintro ⟨before, hbefore, hsettle⟩
      exact (ih.1 hbefore).settle (settle_singleton_eq_ok.1 hsettle)
    · intro h
      obtain ⟨before, hbefore, hsettle⟩ := h.of_concat
      exact ⟨before, ih.2 hbefore, settle_singleton_eq_ok.2 hsettle⟩

end Draft

/-! ## Options -/

/-- The value of an option that may be given once: the one that is given, or the usual one. -/
inductive Chooses {α : Type} (read : String → Option α) (usual : α) : List String → α → Prop
  | usual : Chooses read usual [] usual
  | given {value : String} {a : α} (h : read value = some a) : Chooses read usual [value] a

theorem chooses_iff {α : Type} {read : String → Option α} {usual a : α} {values : List String} :
    Chooses read usual values a ↔ ∃ settled, Settled read values settled ∧ settled.getD usual = a := by
  constructor
  · rintro (_ | ⟨h⟩)
    · exact ⟨none, rfl, rfl⟩
    · exact ⟨some a, ⟨_, rfl, h⟩, rfl⟩
  · rintro ⟨_ | b, hsettled, rfl⟩
    · obtain rfl : values = [] := hsettled
      exact .usual
    · obtain ⟨value, rfl, hread⟩ := hsettled
      exact .given hread

/-- The options are those that the words choose: what is given once, all moods that are given, and the
usual for the rest. Help is not asked for, and no switch is turned on twice. -/
structure Options.Chosen (words : List Word) (o : Options) : Prop where
  output : Chooses path? Curator.standardPath (valuesOf .output words) o.output
  moods : o.moods = if valuesOf .mood words = [] then Curator.standardMoods else valuesOf .mood words
  limit : Chooses count? Curator.standardLimit (valuesOf .limit words) o.limit
  free : Chooses count? OfferRule.standard.freeSlots (valuesOf .free words) o.free
  baseUrl : Chooses some Site.standard.baseUrl (valuesOf .baseUrl words) o.baseUrl
  downloadBase : Chooses some Site.standard.downloadBase (valuesOf .downloadBase words) o.downloadBase
  matchByEquality : turnsOf .matchByEquality words = o.matchByEquality.toNat
  verbose : turnsOf .verbose words ≤ 1
  help : turnsOf .help words = 0

theorem Options.chosen_iff {words : List Word} {o : Options} :
    o.Chosen words ↔ ∃ d : Draft, d.Holds words ∧ d.options = o := by
  constructor
  · rintro ⟨houtput, hmoods, hlimit, hfree, hbase, hdownloads, hequality, hverbose, hhelp⟩
    obtain ⟨output, houtput, hpath⟩ := chooses_iff.1 houtput
    obtain ⟨limit, hlimit, hcount⟩ := chooses_iff.1 hlimit
    obtain ⟨free, hfree, hslots⟩ := chooses_iff.1 hfree
    obtain ⟨baseUrl, hbase, hurl⟩ := chooses_iff.1 hbase
    obtain ⟨downloadBase, hdownloads, hfiles⟩ := chooses_iff.1 hdownloads
    refine ⟨⟨output, valuesOf .mood words, limit, free, baseUrl, downloadBase, o.matchByEquality,
      turnsOf .verbose words = 1⟩, ⟨houtput, rfl, hlimit, hfree, hbase, hdownloads, hequality, ?_,
      hhelp⟩, ?_⟩
    · rcases Nat.le_one_iff_eq_zero_or_eq_one.1 hverbose with h | h <;> simp [h]
    · have hall : (if (valuesOf .mood words).isEmpty then Curator.standardMoods
          else valuesOf .mood words) = o.moods := by simp [hmoods]
      simp only [Draft.options, hpath, hall, hcount, hslots, hurl, hfiles]
  · rintro ⟨d, ⟨houtput, hmoods, hlimit, hfree, hbase, hdownloads, hequality, hverbose, hhelp⟩, rfl⟩
    refine ⟨chooses_iff.2 ⟨_, houtput, rfl⟩, ?_, chooses_iff.2 ⟨_, hlimit, rfl⟩,
      chooses_iff.2 ⟨_, hfree, rfl⟩, chooses_iff.2 ⟨_, hbase, rfl⟩, chooses_iff.2 ⟨_, hdownloads, rfl⟩,
      hequality, ?_, hhelp⟩
    · rw [← hmoods]
      simp [Draft.options]
    · rw [hverbose]
      exact Bool.toNat_le d.verbose

/-- **Accepted arguments** are those that spell words, and they stand for the options that these words
choose. -/
theorem Options.ofArguments_eq_ok {arguments : List String} {o : Options} :
    ofArguments arguments = .ok o ↔ ∃ words, Spells none arguments words ∧ o.Chosen words := by
  unfold ofArguments
  simp only [bind_eq_ok, readArguments_eq_ok, Draft.settle_eq_ok_iff, Options.chosen_iff]
  constructor
  · rintro ⟨d, ⟨words, hwords, hd⟩, h⟩
    cases h
    exact ⟨words, hwords, d, hd, rfl⟩
  · rintro ⟨words, hwords, d, hd, rfl⟩
    exact ⟨d, ⟨words, hwords, hd⟩, rfl⟩

end MusicCatalog.CommandLine
