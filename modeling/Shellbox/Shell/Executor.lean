import Shellbox.Command.Catalog
import Shellbox.Line.Stage

/-!
# Running lines

A line goes into the history, its first word may be an alias, and what it then says is run: as a
pipeline if it has a bar outside quotes, else with its output sent to a file if it has a redirect
sign outside quotes, else as one command. No fault of a command leaves a line; each becomes an
outcome.
-/

namespace Shellbox

open Text Line

/-- What lines are run with: the commands there are and the present time. -/
structure Environment where
  catalog : Catalog
  now : Filesystem.Instant

namespace Environment

/-- What commands see of the environment. -/
def context (env : Environment) : Context := ⟨env.now, env.catalog.pages⟩

/-- Calls a command with its fault, if any, left as it is. -/
def call (env : Environment) (b : Builtin) (s : Session) (args : List String)
    (piped : Option String) : Session × Except Fault Reply :=
  b.handler env.context s args piped

end Environment

/-- The outcome of a word that is no command. -/
def notFoundOutcome (name : String) : Outcome :=
  .errorCode ("Command not found: " ++ name ++ ". Type 'help' for available commands.") 127

/-- The outcome of a command that gave no reply. -/
def faultOutcome (name : String) (f : Fault) : Outcome :=
  .error ("Error executing " ++ name ++ ": " ++ f.message)

/-- The outcome of a reply or a fault. -/
def settle (name : String) : Except Fault Reply → Outcome
  | .error f => faultOutcome name f
  | .ok r =>
    match r.resolve with
    | .error f => faultOutcome name f
    | .ok o => o

/-- Runs a command given by its words. -/
def runWords (env : Environment) (s : Session) (words : List String) (piped : Option String) :
    Session × Outcome :=
  match words with
  | [] => (s, .error "Error: Invalid pipeline syntax")
  | name :: args =>
    match env.catalog.find? name with
    | none => (s, notFoundOutcome name)
    | some b =>
      let (s, reply) := env.call b s args piped
      (s, settle name reply)

/-! ## Sending output to a file -/

/-- The text that a file gets: behind what it holds if appending, else alone. -/
def redirectedText (fs : Filesystem) (r : Redirection) (output : String) :
    Except Filesystem.PathError String :=
  if r.append && fs.isFile (some r.target) then
    (fs.read (some r.target)).map fun old => old ++ "\n" ++ dropFinalBreak output
  else .ok (dropFinalBreak output)

/-- Writes the output of a command to the file of a redirection. -/
def writeRedirected (now : Filesystem.Instant) (fs : Filesystem) (r : Redirection)
    (output : String) : Except Filesystem.PathError Filesystem :=
  match redirectedText fs r output with
  | .error e => .error e
  | .ok text => fs.write now (some r.target) text

/-- Runs a command and writes its output to a file if it succeeds. -/
def runRedirected (env : Environment) (s : Session) (line : String) (piped : Option String) :
    Session × Outcome :=
  match redirection? line with
  | none => (s, .error "Error: Invalid redirect syntax")
  | some r =>
    let (s, o) := runWords env s r.command piped
    if !o.success then (s, o)
    else
      match writeRedirected env.now s.fs r o.output with
      | .error e =>
        (s, .error ("Error: cannot create file '" ++ e.shownPath ++ "': " ++ e.reason))
      | .ok fs => ({ s with fs }, .nothing)

/-! ## Pipelines -/

/-- Runs stages, each with the output of the one before, up to the first that fails. -/
def runStages (env : Environment) (s : Session) (piped : Option String) :
    List String → Session × Outcome
  | [] => (s, .nothing)
  | [last] =>
    if hasRedirect last then runRedirected env s last piped
    else runWords env s (tokenTexts last) piped
  | stage :: rest =>
    let (s, o) := runWords env s (tokenTexts stage) piped
    if o.success then runStages env s (some o.output) rest else (s, o)

/-- Runs a line whose alias, if any, is already replaced. -/
def runExpanded (env : Environment) (s : Session) (line : String) : Session × Outcome :=
  if hasPipe line then runStages env s none (stages line)
  else if hasRedirect line then runRedirected env s line none
  else runWords env s (tokenTexts line) none

/-! ## Lines -/

/-- The first word of a trimmed line, and the rest. -/
def splitFirstWord (line : String) : String × String :=
  (String.ofList (line.toList.takeWhile (!isBlank ·)),
    String.ofList (trimChars (line.toList.dropWhile (!isBlank ·))))

/-- Replaces the first word of a trimmed line by the text of its alias. -/
def expandAlias (aliases : Aliases) (line : String) : String :=
  let (first, rest) := splitFirstWord line
  match aliases.lookup first with
  | none => line
  | some text => if rest.isEmpty then text else text ++ " " ++ rest

/-- Runs a line as it was typed. -/
def execute (env : Environment) (s : Session) (typed : String) : Session × Outcome :=
  let line := trim typed
  if line.isEmpty then (s, .nothing)
  else
    let s := { s with history := s.history.add line }
    runExpanded env s (expandAlias s.aliases line)

/-! ## What is shown -/

/-- The sequence that empties the screen and moves to its corner. -/
def clearSequence : String := "\x1b[2J\x1b[H"

def render (o : Outcome) : String :=
  if o.markers.contains clearScreen then clearSequence ++ o.output else o.output

/-- Runs a line and gives the text shown for it. -/
def runLine (env : Environment) (s : Session) (line : String) : Session × String :=
  let (s, o) := execute env s line
  (s, render o)

/-- The line is part of a script: neither blank nor a comment. -/
def isScriptLine (line : String) : Bool :=
  match trimChars line.toList with
  | [] => false
  | c :: _ => c != '#'

/-- A line and the time at which it is typed. -/
abbrev Typed := Filesystem.Instant × String

/-- The lines of a script without the blank ones and the comments, each at the instant that a clock
has for its place. -/
def scriptLines (clock : Nat → Filesystem.Instant) (script : List String) : List Typed :=
  (script.mapIdx fun k line => (clock k, line)).filter (isScriptLine ·.2)

/-- Runs lines one after another, each at its time; gives what each shows. -/
def runLines (cat : Catalog) (s : Session) : List Typed → Session × List String
  | [] => (s, [])
  | (now, line) :: rest =>
    let (s, text) := runLine ⟨cat, now⟩ s line
    let (s, shown) := runLines cat s rest
    (s, text :: shown)

/-- Runs the lines of a script. The clock stands still unless one is given. -/
def runScript (env : Environment) (s : Session) (script : List String)
    (clock : Nat → Filesystem.Instant := fun _ => env.now) : Session × List String :=
  runLines env.catalog s (scriptLines clock script)

end Shellbox
