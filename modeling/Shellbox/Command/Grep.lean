import Shellbox.Command.Arguments
import Shellbox.Command.Catalog
import Shellbox.Pattern.Compile
import Shellbox.Pattern.Matcher

/-!
# Lines that match a pattern

The command that shows the lines of texts in which a regular expression occurs, or does not.
-/

namespace Shellbox.Command

open Filesystem Text

/-- How lines are chosen and shown. -/
structure LineChoice where
  pattern : Regex
  /-- The lines in which the pattern does not occur are chosen. -/
  inverted : Bool
  /-- Lines are shown with their numbers. -/
  numbered : Bool

def LineChoice.chooses (c : LineChoice) (line : String) : Bool :=
  c.pattern.occursIn line != c.inverted

/-- A chosen line as it is shown. -/
def LineChoice.shown (c : LineChoice) (front : String) (line : String) (number : Nat) : String :=
  if c.numbered then front ++ toString number ++ ":" ++ line else front ++ line

def LineChoice.select (c : LineChoice) (front text : String) : List String :=
  (((lines text).zipIdx 1).filter fun x => c.chooses x.1).map fun x => c.shown front x.1 x.2

/-- The outcome of chosen lines; there is no success without any. -/
def linesOutcome (rows : List String) : Outcome :=
  if rows.isEmpty then .error "" else .ok (joinLines rows)

/-- The files that a path stands for: those below a directory if asked, else the path itself. -/
def grepTargets (fs : Filesystem) (recursive : Bool) (path : String) : List String :=
  if recursive && fs.isDir (some path) then
    match fs.walk (some path) with
    | .error _ => []
    | .ok found => (found.filter (·.2.isFile)).map (·.1)
  else [path]

/-- The chosen lines of files, and the messages of those that cannot be read. -/
def grepFiles (c : LineChoice) (fs : Filesystem) (targets : List String) :
    List String × List String :=
  let read := targets.map fun t => (t, fs.read (some t))
  let front (t : String) : String := if targets.length > 1 then t ++ ":" else ""
  (read.flatMap fun x => match x.2 with
      | .ok text => c.select (front x.1) text
      | .error _ => [],
    read.filterMap fun x => match x.2 with
      | .ok _ => none
      | .error e => some ("grep: " ++ e.message))

def filesOutcome (rows errors : List String) : Outcome :=
  if errors.isEmpty then linesOutcome rows
  else .errorCode (joinLines (rows ++ errors)) 2

/-- Shows the lines that a choice chooses, of the text piped in or of files. -/
def grepWith (c : LineChoice) (recursive : Bool) (fs : Filesystem) (paths : List String)
    (piped : Option String) : Outcome :=
  match piped with
  | some text => linesOutcome (c.select "" text)
  | none =>
    if paths.isEmpty then .error "grep: no files specified (use pipe or provide filename)"
    else
      let (rows, errors) := grepFiles c fs (paths.flatMap (grepTargets fs recursive))
      filesOutcome rows errors

def grep : Handler := .trying fun _ s args piped =>
  let a := Arguments.ofWords args
  match a.operands with
  | [] => .ok (.error "grep: missing pattern")
  | pattern :: paths =>
    match Pattern.compile pattern (a.has 'i') with
    | .error f =>
      if f.isMalformed then .ok (.error ("grep: invalid pattern: " ++ f.message pattern))
      else .error (.pattern pattern f)
    | .ok p => .ok (grepWith ⟨p, a.has 'v', a.has 'n'⟩ (a.has 'r') s.fs paths piped)

end Shellbox.Command
