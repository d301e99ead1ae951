import Shellbox.Command.Catalog

/-!
# Printing text

The command that prints its arguments, with or without a line break at the end and with or without
reading escapes.
-/

namespace Shellbox.Command

open Text

/-- What the flag words of `echo` ask for. -/
structure EchoFlags where
  /-- No line break is added. -/
  bare : Bool
  /-- Escapes are read. -/
  escapes : Bool
deriving DecidableEq, Repr

/-- A word of flags: a dash, letters `n` and `e`, and perhaps a line break. -/
def isEchoFlag (w : String) : Bool :=
  match w.toList with
  | '-' :: r =>
    let letters := if r.getLast? = some '\n' then r.dropLast else r
    !letters.isEmpty && letters.all fun c => c = 'n' || c = 'e'
  | _ => false

def EchoFlags.ofWords (ws : List String) : EchoFlags where
  bare := ws.any (·.toList.contains 'n')
  escapes := ws.any (·.toList.contains 'e')

/-- The character that an escape letter stands for. -/
def escapedChar? : Char → Option Char
  | 'n' => some '\n'
  | 't' => some '\t'
  | 'r' => some '\r'
  | '\\' => some '\\'
  | _ => none

/-- Reads escapes from the left behind a text read already; a backslash before any other character
stays. -/
def readEscapesFrom (read : String) : List Char → String
  | [] => read
  | '\\' :: c :: r =>
    match escapedChar? c with
    | some d => readEscapesFrom (read.push d) r
    | none => readEscapesFrom (read.push '\\') (c :: r)
  | c :: r => readEscapesFrom (read.push c) r
termination_by cs => cs.length

/-- Reads the escapes in a text. -/
def readEscapes (s : String) : String := readEscapesFrom "" s.toList

def echoText (args : List String) : String :=
  let flags := EchoFlags.ofWords (args.takeWhile isEchoFlag)
  let joined := " ".intercalate (args.dropWhile isEchoFlag)
  let text := if flags.escapes then readEscapes joined else joined
  if flags.bare || endsWithBreak text then text else text ++ "\n"

def echo : Handler := .looking fun _ _ args _ =>
  if args.isEmpty then .nothing else .ok (echoText args)

end Shellbox.Command
