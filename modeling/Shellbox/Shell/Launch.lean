import Shellbox.Number.Integer
import Shellbox.Shell.Loop
import Shellbox.Text.Column

/-!
# Starting a shell

The words with which a shell is started choose the user, the directory and the form of the prompt,
and may give one line to run instead of the loop. Long options may be cut short while it is clear
which is meant; short ones may be joined with each other and with a value. The words are read by a
library of which there are two editions.
-/

namespace Shellbox.Launch

open Text Number

/-- The options that a shell can be started with. -/
inductive Switch where
  | help
  | command
  | user
  | directory
  | seed
  | plain
  | verbose
deriving DecidableEq, Repr

def Switch.spellings : Switch → List String
  | .help => ["-h", "--help"]
  | .command => ["-c", "--command"]
  | .user => ["-u", "--user"]
  | .directory => ["-d", "--directory"]
  | .seed => ["--seed"]
  | .plain => ["--no-color"]
  | .verbose => ["-v", "--verbose"]

def Switch.takesValue : Switch → Bool
  | .command => true
  | .user => true
  | .directory => true
  | .seed => true
  | _ => false

/-- What stands for the value of an option where the options are explained. -/
def Switch.placeholder : Switch → String
  | .command => "COMMAND"
  | .user => "USER"
  | .directory => "DIRECTORY"
  | .seed => "SEED"
  | _ => ""

def Switch.summary : Switch → String
  | .help => "show this help message and exit"
  | .command => "Execute command and exit"
  | .user => "Set username"
  | .directory => "Set initial directory"
  | .seed => "Seed for random output"
  | .plain => "Plain prompt"
  | .verbose => "Enable debug logging"

def switches : List Switch := [.help, .command, .user, .directory, .seed, .plain, .verbose]

def spellings : List (String × Switch) :=
  switches.flatMap fun s => s.spellings.map fun t => (t, s)

/-- A spelling of an option with what stands for its value. -/
def Switch.form (s : Switch) (spelling : String) : String :=
  if s.takesValue then spelling ++ " " ++ s.placeholder else spelling

/-- The options in brackets on two rows, each by its first spelling. -/
def usage : String :=
  let items := switches.map fun s => "[" ++ s.form (s.spellings.headD "") ++ "]"
  "usage: vshell " ++ " ".intercalate (items.take 5) ++ "\n" ++
    padRight 14 "" ++ " ".intercalate (items.drop 5)

/-- An option in all its spellings; what it does stands beside them if there is room. -/
def Switch.entry (s : Switch) : String :=
  let forms := ", ".intercalate (s.spellings.map s.form)
  if forms.length ≤ 20 then "  " ++ padRight 22 forms ++ s.summary
  else "  " ++ forms ++ "\n" ++ padRight 24 "" ++ s.summary

def explanation : String :=
  usage ++ "\n\nvshell - portfolio terminal emulator\n\noptions:\n" ++
    "\n".intercalate (switches.map Switch.entry) ++ "\n"

/-- Why a shell cannot be started. -/
inductive Fault where
  | ambiguous (word : String) (matching : List String)
  | missingValue (s : Switch)
  | unusedValue (s : Switch) (value : String)
  | badSeed (value : String)
  | unrecognized (words : List String)
deriving DecidableEq, Repr

def aboutSwitch (s : Switch) (text : String) : String :=
  "argument " ++ "/".intercalate s.spellings ++ ": " ++ text

def Fault.message : Fault → String
  | .ambiguous w ms => "ambiguous option: " ++ w ++ " could match " ++ ", ".intercalate ms
  | .missingValue s => aboutSwitch s "expected one argument"
  | .unusedValue s v => aboutSwitch s ("ignored explicit argument " ++ quoted v)
  | .badSeed v => aboutSwitch .seed ("invalid int value: " ++ quoted v)
  | .unrecognized ws => "unrecognized arguments: " ++ " ".intercalate ws

/-! ## Words -/

/-- What is joined to an option in one word, without the equals sign if there is one between. -/
structure Joined where
  value : String
  /-- An equals sign stands between. -/
  assigned : Bool
deriving DecidableEq, Repr

/-- What a word is before its place is looked at. -/
inductive Word where
  | operand
  /-- An option as it is spelled, with what is joined to it. -/
  | option (s : Switch) (spelling : String) (joined : Option Joined)
  /-- It looks like an option but is none. -/
  | unknown
deriving DecidableEq, Repr

/-- What stands before and behind the first equals sign. -/
def splitEquals? (word : String) : Option (String × String) :=
  if word.toList.contains '=' then
    some (String.ofList (word.toList.takeWhile (· != '=')),
      String.ofList ((word.toList.dropWhile (· != '=')).drop 1))
  else none

/-- The spellings that a word of two dashes may be short for, with what is joined to it. -/
def longMatches (word : String) : List (Switch × String × Option Joined) :=
  let (front, joined) : String × Option Joined := match splitEquals? word with
    | some (front, value) => (front, some ⟨value, true⟩)
    | none => (word, none)
  (spellings.filter fun x => front.toList.isPrefixOf x.1.toList).map fun x => (x.2, x.1, joined)

/-- The option whose letter a word of one dash begins with; the rest of the word is joined to it. -/
def shortMatches (word : String) : List (Switch × String × Option Joined) :=
  let front := String.ofList (word.toList.take 2)
  (spellings.filter fun x => x.1 = front).map fun x =>
    (x.2, x.1, some ⟨String.ofList (word.toList.drop 2), false⟩)

/-- A negative number, whole or with a fraction. -/
def isNegativeNumber (word : String) : Bool :=
  let cs := word.toList
  let cs := if cs.getLast? = some '\n' then cs.dropLast else cs
  match cs with
  | '-' :: r =>
    let rest := r.dropWhile isDecimal
    (!r.isEmpty && rest.isEmpty) ||
      match rest with
      | '.' :: fraction => !fraction.isEmpty && fraction.all isDecimal
      | _ => false
  | _ => false

/-- What a word is that begins with a dash and is no option as it stands. -/
def looseWord (word : String) : Except Fault Word :=
  let found :=
    if "--".toList.isPrefixOf word.toList then longMatches word else shortMatches word
  match found with
  | [(s, spelling, joined)] => .ok (.option s spelling joined)
  | [] =>
    if isNegativeNumber word || word.toList.contains ' ' then .ok .operand else .ok .unknown
  | _ => .error (.ambiguous word (found.map (·.2.1)))

/-- An option spelled out before an equals sign. -/
def assigned? (word : String) : Option Word :=
  (splitEquals? word).bind fun (front, value) =>
    (spellings.lookup front).map fun s => .option s front (some ⟨value, true⟩)

def Word.ofText (word : String) : Except Fault Word :=
  if word.toList.head? != some '-' then .ok .operand
  else
    match spellings.lookup word with
    | some s => .ok (.option s word none)
    | none =>
      if word = "-" then .ok .operand
      else
        match assigned? word with
        | some w => .ok w
        | none => looseWord word

/-- Words with what they are; behind a lone double dash all words are operands. -/
def classify : List String → Except Fault (List (String × Word))
  | [] => .ok []
  | "--" :: r => .ok (("--", .unknown) :: r.map fun w => (w, .operand))
  | w :: r =>
    match Word.ofText w with
    | .error f => .error f
    | .ok x => (classify r).map fun rest => (w, x) :: rest

/-! ## Requests -/

/-- What is asked for when a shell is started. -/
structure Request where
  /-- The line to run instead of the loop; an empty one asks for the loop. -/
  command : Option String := none
  user : String := "guest"
  directory : Option String := none
  /-- The number that fixes the random choices. -/
  seed : Option Int := none
  colors : Bool := true
  /-- Only an explanation of the options is asked for. -/
  help : Bool := false
  /-- The words that mean nothing. -/
  extras : List String := []
deriving DecidableEq, Repr

/-- The editions of the library that reads the words, both of which are in use. In the later one an
equals sign may stand between a letter and what is joined to it wherever the letter is in its word;
what is joined by one to a letter without a value is refused; behind an unknown letter the rest of
the word means nothing, while the earlier one refuses it; and two dashes may be joined to an option
as its value. -/
inductive Edition where
  | earlier
  | later
deriving DecidableEq, Repr

/-- What is kept of a value: in the earlier edition two dashes are no value. -/
def Edition.kept (e : Edition) (value : String) : Option String :=
  if e = .earlier ∧ value = "--" then none else some value

/-- Puts the value of an option into a request; without one the user is an empty list, written as
prompts show it. -/
def Request.set (e : Edition) (q : Request) (s : Switch) (value : String) : Except Fault Request :=
  match s with
  | .command => .ok { q with command := e.kept value }
  | .user => .ok { q with user := (e.kept value).getD "[]" }
  | .directory => .ok { q with directory := e.kept value }
  | .seed =>
    match e.kept value with
    | none => .ok { q with seed := none }
    | some v =>
      match readInteger? v with
      | some n => .ok { q with seed := some n }
      | none => .error (.badSeed v)
  | _ => .ok q

/-- Turns an option without a value on. -/
def Request.turnOn (q : Request) : Switch → Request
  | .plain => { q with colors := false }
  | .help => { q with help := true }
  | _ => q

/-- The options joined in one word: those without a value, and how the word goes on. -/
inductive Bundle where
  /-- The last option has its value in the word. -/
  | complete (flags : List Switch) (last : Switch) (value : String)
  /-- The last option takes the next word as its value. -/
  | expecting (flags : List Switch) (last : Switch)
  | flagsOnly (flags : List Switch)
  /-- The rest of the word means nothing. -/
  | cut (flags : List Switch) (rest : String)
deriving DecidableEq, Repr

/-- Reads the letters that are joined behind an option without a value. -/
def readLetters (e : Edition) (flags : List Switch) (s : Switch) : List Char → Except Fault Bundle
  | [] => .ok (.flagsOnly (flags ++ [s]))
  | c :: r =>
    match spellings.lookup (String.ofList ['-', c]) with
    | none =>
      if e = .later ∧ c ≠ '-' then .ok (.cut (flags ++ [s]) (String.ofList ('-' :: c :: r)))
      else .error (.unusedValue s (String.ofList (c :: r)))
    | some next =>
      match e, r with
      | .later, '=' :: v =>
        if next.takesValue then .ok (.complete (flags ++ [s]) next (String.ofList v))
        else .error (.unusedValue next (String.ofList v))
      | _, _ =>
        if !next.takesValue then readLetters e (flags ++ [s]) next r
        else if r.isEmpty then .ok (.expecting (flags ++ [s]) next)
        else .ok (.complete (flags ++ [s]) next (String.ofList r))

/-- What an option asks for, given what is joined to it. -/
def Bundle.ofOption (e : Edition) (s : Switch) (spelling : String) (joined : Option Joined) :
    Except Fault Bundle :=
  match joined with
  | none => .ok (if s.takesValue then .expecting [] s else .flagsOnly [s])
  | some ⟨value, assigned⟩ =>
    if s.takesValue then .ok (.complete [] s value)
    else if "--".toList.isPrefixOf spelling.toList || value.isEmpty || (e = .later && assigned) then
      .error (.unusedValue s value)
    else readLetters e [] s value.toList

/-- Takes words into a request from the left; nothing behind a call for help counts. -/
def Request.takeWords (e : Edition) (q : Request) : List (String × Word) → Except Fault Request
  | [] => .ok q
  | (w, .operand) :: r => takeWords e { q with extras := q.extras ++ [w] } r
  | (w, .unknown) :: r => takeWords e { q with extras := q.extras ++ [w] } r
  | (_, .option s spelling joined) :: r =>
    match Bundle.ofOption e s spelling joined with
    | .error f => .error f
    | .ok (.flagsOnly fs) =>
      let q := fs.foldl turnOn q
      if q.help then .ok q else takeWords e q r
    | .ok (.cut fs rest) =>
      let q := fs.foldl turnOn q
      if q.help then .ok q else takeWords e { q with extras := q.extras ++ [rest] } r
    | .ok (.complete fs last v) =>
      let q := fs.foldl turnOn q
      if q.help then .ok q
      else
        match q.set e last v with
        | .error f => .error f
        | .ok q => takeWords e q r
    | .ok (.expecting fs last) =>
      match r with
      | (v, .operand) :: r =>
        let q := fs.foldl turnOn q
        if q.help then .ok q
        else
          match q.set e last v with
          | .error f => .error f
          | .ok q => takeWords e q r
      | _ => .error (.missingValue last)

/-- The request that words make, read by the earlier edition unless another is given. -/
def Request.ofWords (words : List String) (e : Edition := .earlier) : Except Fault Request :=
  match classify words with
  | .error f => .error f
  | .ok ws =>
    match ({} : Request).takeWords e ws with
    | .error f => .error f
    | .ok q => if q.extras.isEmpty || q.help then .ok q else .error (.unrecognized q.extras)

def Request.settings (q : Request) : Settings :=
  { user := q.user, initialDirectory := q.directory, colors := q.colors }

/-! ## What is done -/

/-- What a shell is started for. -/
inductive Task where
  | explain
  | line (text : String)
  | converse
deriving DecidableEq, Repr

def Request.task (q : Request) : Task :=
  if q.help then .explain
  else
    match q.command with
    | none => .converse
    | some line => if line.isEmpty then .converse else .line line

/-- What a shell shows and the code it ends with. -/
structure Ending where
  shown : String
  code : Nat
deriving DecidableEq, Repr

def Ending.ofOutcome (o : Outcome) : Ending := ⟨shownText (render o), o.exitCode⟩

/-- Why a shell breaks off. -/
inductive Break where
  /-- The tree to start on cannot be made. -/
  | tree (e : Filesystem.PathError)
  | loop (f : LoopFault)
deriving DecidableEq, Repr

def Break.message : Break → String
  | .tree e => e.message
  | .loop f => f.message

/-- The new session of a request. -/
def Request.start (q : Request) (now : Filesystem.Instant) (draws : List Int) :
    Except Break Session :=
  (Session.create now q.settings draws).mapError .tree

/-- Does what a request asks for: explains the options, or runs one line or the loop on inputs in a
session made at the present time. The clock tells when the line or an input comes; it stands still
unless one is given. -/
def run (env : Environment) (q : Request) (draws : List Int) (inputs : List Input)
    (clock : Nat → Filesystem.Instant := fun _ => env.now) : Except Break Ending :=
  match q.task with
  | .explain => .ok ⟨explanation, 0⟩
  | .line line =>
    (q.start env.now draws).map fun s => .ofOutcome (execute ⟨env.catalog, clock 0⟩ s line).2
  | .converse =>
    (q.start env.now draws).bind fun s =>
      ((Console.interact env ⟨s, false⟩ inputs clock).2.mapError .loop).map fun shown => ⟨shown, 0⟩

end Shellbox.Launch
