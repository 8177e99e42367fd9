import MusicCatalog.Curator

/-!
# The command line

* `Setting`, `Switch`, `Flag`: the options that take a value, and those that do not;
* `Draft`, `Draft.give`, `Draft.turn`: what the arguments have settled so far; only moods may be
  given more than once;
* **`readArguments`**: the arguments one by one;
* `Options`, `Draft.options`: the draft with everything else as usual;
* `carryOut`: what a command says, by any way to make a catalog;
* **`perform`**: what a command does and says, where the files are a tree.
-/

namespace MusicCatalog.CommandLine

open Files

/-! ## Options -/

/-- An option that takes a value. -/
inductive Setting where
  | output
  | mood
  | limit
  | free
  | baseUrl
  | downloadBase
deriving DecidableEq

/-- An option without a value. -/
inductive Switch where
  | matchByEquality
  | verbose
  | help
deriving DecidableEq

/-- An option. -/
inductive Flag where
  | setting (s : Setting)
  | switch (s : Switch)

/-- The option of a long name. -/
def longFlag? : (name : String) → Option Flag
  | "output" => some (.setting .output)
  | "mood" => some (.setting .mood)
  | "limit" => some (.setting .limit)
  | "free" => some (.setting .free)
  | "base-url" => some (.setting .baseUrl)
  | "download-base" => some (.setting .downloadBase)
  | "match-by-equality" => some (.switch .matchByEquality)
  | "verbose" => some (.switch .verbose)
  | "help" => some (.switch .help)
  | _ => none

/-- The option of a letter. -/
def shortFlag? : (letter : Char) → Option Flag
  | 'o' => some (.setting .output)
  | 'm' => some (.setting .mood)
  | 'l' => some (.setting .limit)
  | 'v' => some (.switch .verbose)
  | 'h' => some (.switch .help)
  | _ => none

/-- Why a command is not carried out. -/
inductive Stop where
  /-- The arguments are wrong. -/
  | usage
  /-- Help is asked for. -/
  | help
deriving DecidableEq

/-- The exit code of a command that is not carried out. -/
def Stop.exitCode : Stop → UInt8
  | usage => 2
  | help => 0

/-! ## Drafts -/

/-- What the arguments have settled. -/
structure Draft where
  output : Option String
  moods : List String
  limit : Option UInt64
  free : Option UInt64
  baseUrl : Option String
  downloadBase : Option String
  matchByEquality : Bool
  verbose : Bool

/-- Nothing is settled. -/
def Draft.none : Draft := ⟨.none, [], .none, .none, .none, .none, false, false⟩

/-- A number of 64 bits: digits, and a plus before them if one likes. -/
def count? (s : String) : Option UInt64 :=
  let digits :=
    match s.toList with
    | [] => []
    | c :: r => if c = '+' then r else c :: r
  let n := digits.foldl (fun n c => n * 10 + Json.digitValue c) 0
  if digits ≠ [] ∧ digits.all Char.isDigit ∧ n < 0x10000000000000000 then some n.toUInt64 else none

namespace Draft

variable (d : Draft)

/-- Settles a value that may be given once. -/
def once {α : Type} (settled : Option α) (value : Option α) : Except Stop (Option α) :=
  if settled.isSome ∨ value.isNone then .error .usage else .ok value

/-- Gives an option its value. A file must have a name. -/
def give (value : String) : Setting → Except Stop Draft
  | .output => do
    let v ← once d.output (if value.isEmpty then .none else some value)
    .ok { d with output := v }
  | .mood => .ok { d with moods := d.moods ++ [value] }
  | .limit => do
    let v ← once d.limit (count? value)
    .ok { d with limit := v }
  | .free => do
    let v ← once d.free (count? value)
    .ok { d with free := v }
  | .baseUrl => do
    let v ← once d.baseUrl (some value)
    .ok { d with baseUrl := v }
  | .downloadBase => do
    let v ← once d.downloadBase (some value)
    .ok { d with downloadBase := v }

/-- Turns an option on. -/
def turn : Switch → Except Stop Draft
  | .matchByEquality =>
    if d.matchByEquality then .error .usage else .ok { d with matchByEquality := true }
  | .verbose => if d.verbose then .error .usage else .ok { d with verbose := true }
  | .help => .error .help

end Draft

/-! ## Arguments -/

/-- Reads the letters after one dash. An option with a value takes the rest as its value, less an
equals sign in front; without a rest it waits for the next argument. -/
def readLetters (d : Draft) : List Char → Except Stop (Draft × Option Setting)
  | [] => .ok (d, none)
  | c :: r =>
    match shortFlag? c with
    | none => .error .usage
    | some (.switch s) => do readLetters (← d.turn s) r
    | some (.setting s) =>
      match r with
      | [] => .ok (d, some s)
      | e :: value => do
        let d ← d.give (String.ofList (if e = '=' then value else e :: value)) s
        .ok (d, none)

/-- Reads what stands after two dashes: a name, and maybe an equals sign and a value. -/
def readLong (d : Draft) (text : List Char) : Except Stop (Draft × Option Setting) :=
  let name := text.takeWhile (· ≠ '=')
  match longFlag? (String.ofList name), text.drop name.length with
  | none, _ => .error .usage
  | some (.switch s), [] => do .ok (← d.turn s, none)
  | some (.switch _), _ :: _ => .error .usage
  | some (.setting s), [] => .ok (d, some s)
  | some (.setting s), _ :: value => do .ok (← d.give (String.ofList value) s, none)

/-- An argument may be the value of the option before it. -/
def mayBeValue (argument : String) : Bool :=
  argument = "-" || argument.toList.head? != some '-'

/-- Reads the arguments; `waiting` is the option before them, if its value is still to come. There
are no arguments but options, and none may follow `--`. -/
def readArguments (d : Draft) (waiting : Option Setting) : List String → Except Stop Draft
  | [] => if waiting.isSome then .error .usage else .ok d
  | a :: rest =>
    match waiting, a.toList with
    | some s, _ => do
      if mayBeValue a then readArguments (← d.give a s) none rest else .error .usage
    | none, ['-', '-'] => if rest.isEmpty then .ok d else .error .usage
    | none, '-' :: '-' :: text => do
      let (d, waiting) ← readLong d text
      readArguments d waiting rest
    | none, '-' :: c :: r => do
      let (d, waiting) ← readLetters d (c :: r)
      readArguments d waiting rest
    | none, _ => .error .usage

/-- What a command is told to do. -/
structure Options where
  output : String
  moods : List String
  limit : UInt64
  free : UInt64
  baseUrl : String
  downloadBase : String
  matchByEquality : Bool

/-- The options of a draft; what it leaves open is as usual. -/
def Draft.options (d : Draft) : Options where
  output := d.output.getD Curator.standardPath
  moods := if d.moods.isEmpty then Curator.standardMoods else d.moods
  limit := d.limit.getD Curator.standardLimit
  free := d.free.getD OfferRule.standard.freeSlots
  baseUrl := d.baseUrl.getD Site.standard.baseUrl
  downloadBase := d.downloadBase.getD Site.standard.downloadBase
  matchByEquality := d.matchByEquality

/-- The options that some arguments settle. -/
def Options.ofArguments (arguments : List String) : Except Stop Options := do
  .ok (← readArguments .none none arguments).options

/-! ## Commands -/

/-- The site that is meant. -/
def Options.site (o : Options) : Site :=
  (Site.standard.withBaseUrl o.baseUrl).withDownloadBase o.downloadBase

/-- The curator that is meant. -/
def Options.curator (o : Options) : Except Failure Curator := do
  let c ← Curator.ofSite o.site
  .ok
    { c with
      moods := o.moods
      limit := o.limit
      rule := ⟨o.free, if o.matchByEquality then .equality else .index⟩
      outputPath := o.output }

/-- What is said about a success. -/
def reportText (r : Report) : String :=
  "Generated catalog with " ++ toString r.totalPieces ++ " pieces\n" ++
  "- Free access: " ++ toString r.freeCount ++ " pieces\n" ++
  "- Pro access: " ++ toString r.proCount ++ " pieces\n" ++
  "Saved to " ++ r.outputPath ++ "\n"

/-- What is said about a failure that has nothing to do with the site. -/
def localFailureText (f : Failure) : String := "An error occurred: " ++ f.message ++ "\n"

/-- What is said about a failure. -/
def failureText (f : Failure) : String :=
  if f.isRemote then "Error accessing the API: " ++ f.message ++ "\n" else localFailureText f

/-- Carries out a command, as `make` makes a catalog: what is said, and the exit code. -/
def carryOut {m : Type → Type} [Monad m] (arguments : List String)
    (make : Curator → m (Except Failure Report)) : m (String × UInt8) :=
  match Options.ofArguments arguments with
  | .error stop => return ("", stop.exitCode)
  | .ok options =>
    match options.curator with
    | .error failure => return (localFailureText failure, 1)
    | .ok curator => do
      match ← make curator with
      | .ok report => return (reportText report, 0)
      | .error failure => return (failureText failure, 1)

/-- What a command has said, its exit code, and the files after it. -/
structure Outcome where
  stdout : String
  exitCode : UInt8
  files : Tree

/-- Makes a catalog and writes it to a tree of files, which stays as it is if this fails. -/
def makeIn (web : Web) (w : Random.Words) (now : String) (curator : Curator) :
    StateM Tree (Except Failure Report) := fun files =>
  match curator.run web w now files with
  | .ok (report, files) => (.ok report, files)
  | .error failure => (.error failure, files)

/-- Carries out a command on a tree of files. -/
def perform (arguments : List String) (web : Web) (w : Random.Words) (now : String) (files : Tree) :
    Outcome :=
  let ((stdout, exitCode), files) := (carryOut arguments (makeIn web w now)).run files
  ⟨stdout, exitCode, files⟩

/-- The requests of a command that arrive. -/
def requests (arguments : List String) (web : Web) : List Request :=
  match Options.ofArguments arguments with
  | .error _ => []
  | .ok options =>
    match options.curator with
    | .error _ => []
    | .ok curator => curator.client.requests web

end MusicCatalog.CommandLine
