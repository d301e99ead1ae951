import Shellbox.Calendar
import Shellbox.Number.Numeral
import Shellbox.Pattern.Fault
import Shellbox.Text.Json

/-!
# What a command gives back

An outcome is text with a success flag, an exit code and markers for the display. A reply is an
outcome that is there at once or arrives later. A fault is what escapes from a command that could
not give any reply.
-/

namespace Shellbox

open Text Number

/-- The text, the success and the markers of a finished command. -/
structure Outcome where
  output : String
  success : Bool
  exitCode : Nat
  /-- Tags for the display, such as the one that asks for an empty screen. -/
  markers : List String
deriving DecidableEq, Repr

namespace Outcome

def ok (output : String) : Outcome := ⟨output, true, 0, []⟩

def marked (output marker : String) : Outcome := ⟨output, true, 0, [marker]⟩

def errorCode (message : String) (code : Nat) : Outcome := ⟨message, false, code, []⟩

def error (message : String) : Outcome := errorCode message 1

/-- Success without a text. -/
def nothing : Outcome := ok ""

end Outcome

/-- The marker that asks for an empty screen. -/
def clearScreen : String := "clearScreen"

def fallingLetters : String := "matrix"

/-- Why a command gives no reply at all. -/
inductive Fault where
  /-- A numeral is too long or holds a digit that is not decimal. -/
  | numeral (f : NumeralFault)
  /-- A number at the front of a line cannot be read. -/
  | fraction (text : String)
  /-- A pattern holds a number that is too large. -/
  | pattern (text : String) (f : Pattern.Fault)
  /-- A least length is too large. -/
  | repetitionTooLarge
  /-- A point in time has no date. -/
  | date (f : Calendar.Fault)
  /-- The content of a file is nested too deep. -/
  | nesting (c : Json.Container)
  /-- A command of its own gave up with a message. -/
  | raised (message : String)

def Fault.message : Fault → String
  | .numeral f => f.message
  | .fraction t => "could not convert string to float: " ++ quoted t
  | .pattern text f => f.message text
  | .repetitionTooLarge => "the repetition number is too large"
  | .date f => f.message
  | .nesting .array =>
    "maximum recursion depth exceeded while decoding a JSON array from a unicode string"
  | .nesting .object =>
    "maximum recursion depth exceeded while decoding a JSON object from a unicode string"
  | .raised m => m

/-- What a command answers. -/
inductive Reply where
  /-- An outcome that is there at once. -/
  | ready (o : Outcome)
  /-- An outcome that is worked out when it is asked for. -/
  | pending (o : Except Fault Outcome)

def Reply.resolve : Reply → Except Fault Outcome
  | .ready o => .ok o
  | .pending o => o

end Shellbox
