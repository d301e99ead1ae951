import Shellbox.Shell.Executor
import Shellbox.Shell.Prompt

/-!
# The interactive loop

Shows the message of the day and then, for each input, the prompt and what the line shows. An
interrupt gives up the line; the end of the input ends the loop, and no line does.
-/

namespace Shellbox

open Text

/-- What is typed at a prompt. -/
inductive Input where
  | line (text : String)
  | interrupt
deriving DecidableEq, Repr

/-- Why the loop breaks off. -/
inductive LoopFault where
  /-- The message of the day cannot be read. -/
  | greeting (e : Filesystem.PathError)
  | prompt (f : Format.Fault)
deriving DecidableEq, Repr

def LoopFault.message : LoopFault → String
  | .greeting e => e.message
  | .prompt f => f.message

/-- The text shown for a line, with a line break behind it unless it is empty or has one. -/
def shownText (text : String) : String :=
  if text.isEmpty || endsWithBreak text then text else text ++ "\n"

/-- What an input does at an instant, and what is shown for it. -/
def takeInput (cat : Catalog) (s : Session) (now : Filesystem.Instant) : Input → Session × String
  | .interrupt => (s, "^C\n")
  | .line text =>
    let (s, shown) := runLine ⟨cat, now⟩ s text
    (s, shownText shown)

/-- An input and the instant at which it comes. -/
abbrev Arrival := Filesystem.Instant × Input

/-- The session behind a prompt, and whether its loop goes on. -/
structure Console where
  session : Session
  running : Bool

/-- What comes next in the loop: nothing if it has stopped, else the prompt. -/
def Console.next (c : Console) : Option (Except LoopFault String) :=
  if c.running then some (c.session.prompt.mapError .prompt) else none

/-- What comes behind a prompt, and what is shown for it; the end of the input stops the loop. -/
def Console.take (cat : Catalog) (c : Console) : Option Arrival → Console × String
  | none => ({ c with running := false }, "\n")
  | some (now, i) =>
    let (s, text) := takeInput cat c.session now i
    ({ c with session := s }, text)

/-- Takes inputs while the loop is to go on. -/
def Console.takeInputs (cat : Catalog) (c : Console) (shown : String) (inputs : List Arrival) :
    Console × Except LoopFault String :=
  match c.next with
  | none => (c, .ok shown)
  | some (.error f) => (c, .error f)
  | some (.ok p) =>
    match inputs with
    | [] =>
      let (c, text) := c.take cat none
      (c, .ok (shown ++ p ++ text))
    | i :: r =>
      let (c, text) := c.take cat (some i)
      takeInputs cat c (shown ++ p ++ text) r

def greetingPath : String := "/etc/motd"

/-- Starts the loop with the message of the day. -/
def Console.greet (c : Console) : Console × Except LoopFault String :=
  ({ c with running := true },
    ((c.session.fs.read (some greetingPath)).map (· ++ "\n")).mapError .greeting)

/-- The inputs, each at the instant that a clock has for its place. -/
def arrivals (clock : Nat → Filesystem.Instant) (inputs : List Input) : List Arrival :=
  inputs.mapIdx fun k i => (clock k, i)

/-- Runs the loop on inputs; gives all that is shown. The clock stands still unless one is given. -/
def Console.interact (env : Environment) (c : Console) (inputs : List Input)
    (clock : Nat → Filesystem.Instant := fun _ => env.now) : Console × Except LoopFault String :=
  match c.greet with
  | (c, .error f) => (c, .error f)
  | (c, .ok greeting) => c.takeInputs env.catalog greeting (arrivals clock inputs)

end Shellbox
