import Shellbox.Command.Standard
import Shellbox.Shell.Launch
import Std.Time.DateTime.Timestamp

/-!
# The program

Starts a shell with the words of the command line. Only the clock, the random draws and the terminal
are here: what is asked for is done by `Launch.run`, and the steps of the loop are `Console.next` and
`Console.take`.
-/

namespace Shellbox.Terminal

open Text

def presentEnvironment : IO Environment := do
  let seconds := (← Std.Time.Timestamp.now).toSecondsSinceUnixEpoch.val
  return { catalog := Catalog.standard, now := seconds }

/-- Random draws, as many as a line can have stages. -/
def freshDraws (line : String) : IO (List Int) :=
  (line.splitOn "|").mapM fun _ => return Int.ofNat (← IO.rand 0 stdRange.2)

/-- Shows a text at once. -/
def put (text : String) : IO Unit := do
  let out ← IO.getStdout
  out.putStr text
  out.flush

def complain (message : String) : IO UInt32 := do
  IO.eprintln message
  return 1

/-- Takes what is typed, each line behind a prompt, until the input ends. -/
partial def converse (input : IO.FS.Stream) (c : Console) : IO UInt32 := do
  match c.next with
  | none => return 0
  | some (.error f) => complain f.message
  | some (.ok p) =>
    put p
    let typed ← input.getLine
    let line := dropFinalBreak typed
    let env ← presentEnvironment
    let s := { c.session with draws := ← freshDraws line }
    let arrival := if typed.isEmpty then none else some (env.now, Input.line line)
    let (c, shown) := Console.take env.catalog { c with session := s } arrival
    put shown
    converse input c

def serve (q : Launch.Request) : IO UInt32 := do
  let env ← presentEnvironment
  let draws ← freshDraws (q.command.getD "")
  match q.task with
  | .converse =>
    match q.start env.now draws with
    | .error f => complain f.message
    | .ok s =>
      match Console.greet ⟨s, false⟩ with
      | (_, .error f) => complain f.message
      | (c, .ok greeting) =>
        put greeting
        converse (← IO.getStdin) c
  | _ =>
    match Launch.run env q draws [] with
    | .error f => complain f.message
    | .ok e =>
      put e.shown
      return e.code.toUInt32

end Shellbox.Terminal

def main (words : List String) : IO UInt32 := do
  match Shellbox.Launch.Request.ofWords words .later with
  | .error f =>
    IO.eprintln (Shellbox.Launch.usage ++ "\nvshell: error: " ++ f.message)
    return 2
  | .ok q =>
    q.seed.forM fun n => IO.setRandSeed n.natAbs
    Shellbox.Terminal.serve q
