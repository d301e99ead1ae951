import Shellbox.Command.Arguments
import Shellbox.Command.Catalog

/-!
# Showing texts

The commands that show files, whole or in part. Text piped in takes the place of a file.
-/

namespace Shellbox.Command

open Filesystem Text Number

def numberLines (text : String) : String :=
  joinLines (((lines text).zipIdx 1).map fun x => padLeft 6 (toString x.2) ++ "  " ++ x.1)

/-- The texts of files one after the other, or the first error. -/
def readAll (fs : Filesystem) (paths : List String) : Except PathError (List String) :=
  paths.mapM fun p => fs.read (some p)

def cat : Handler := .looking fun _ s args piped =>
  let a := Arguments.ofWords args
  let shown (text : String) : String := if a.has 'n' then numberLines text else text
  match piped with
  | some text => .ok (shown text)
  | none =>
    if a.operands.isEmpty then .error "cat: missing file operand"
    else
      match readAll s.fs a.operands with
      | .error e => .error ("cat: " ++ e.message)
      | .ok texts => .ok ("\n\n".intercalate (texts.map shown))

/-- A piece of the arguments of `head` and `tail`. -/
inductive CountWord where
  /-- The option for a count, whose value is the next word. -/
  | option
  /-- A count in one word with its option. -/
  | joined (value : String)
  | operand

def CountWord.ofWord (w : String) : CountWord :=
  if w = "-n" then .option
  else
    match w.toList with
    | '-' :: 'n' :: r => .joined (String.ofList r)
    | '-' :: r => if isDigits (String.ofList r) then .joined (String.ofList r) else .operand
    | _ => .operand

/-- The value of a count; words that are no digits at all are refused without a fault. -/
def readCount (value : String) : Except Fault (Option Nat) :=
  if isDigits value then
    match readNumeral value with
    | .error f => .error (.numeral f)
    | .ok n => .ok (some n)
  else .ok none

/-- The last count and the files among words; no result if some count is refused. -/
def countAndFiles (count : Nat) : List String → Except Fault (Option (Nat × List String))
  | [] => .ok (some (count, []))
  | w :: r =>
    match CountWord.ofWord w with
    | .operand => (countAndFiles count r).map fun x => x.map fun (n, fs) => (n, w :: fs)
    | .joined v =>
      match readCount v with
      | .error f => .error f
      | .ok none => .ok none
      | .ok (some n) => countAndFiles n r
    | .option =>
      match r with
      | [] => .ok none
      | v :: r =>
        match readCount v with
        | .error f => .error f
        | .ok none => .ok none
        | .ok (some n) => countAndFiles n r

/-- Shows some lines of a text: those that `take` keeps of them for a count. -/
def someLines (name : String) (take : Nat → List String → List String) (s : Session)
    (args : List String) (piped : Option String) : Except Fault Outcome :=
  match countAndFiles 10 args with
  | .error f => .error f
  | .ok none => .ok (.error (name ++ ": invalid number of lines"))
  | .ok (some (count, files)) =>
    let shown (text : String) : Outcome := .ok (joinLines (take count (lines text)))
    match piped, files with
    | some text, _ => .ok (shown text)
    | none, [] => .ok (.error (name ++ ": missing file operand"))
    | none, f :: _ =>
      match s.fs.read (some f) with
      | .error e => .ok (.error (name ++ ": " ++ e.message))
      | .ok text => .ok (shown text)

/-- The first lines of a list. -/
def firstLines (n : Nat) (ls : List String) : List String := ls.take n

/-- The last lines of a list. -/
def lastLines (n : Nat) (ls : List String) : List String := ls.drop (ls.length - n)

/-- Shows the first lines of a file. -/
def head : Handler := .trying fun _ => someLines "head" firstLines

/-- Shows the last lines of a file. -/
def tail : Handler := .trying fun _ => someLines "tail" lastLines

/-- What stands below a file shown page by page. -/
def pagerFooter : String := "\n\n[Scroll to view more - 'q' or 'Esc' to return to terminal]"

def less : Handler := .looking fun _ s args _ =>
  match args with
  | [] => .error "less: missing file operand"
  | f :: _ =>
    match s.fs.read (some f) with
    | .error e => .error ("less: " ++ e.message)
    | .ok text => .ok (text ++ pagerFooter)

end Shellbox.Command
