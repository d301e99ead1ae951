import Shellbox.Text.Blank
import Shellbox.Text.Lines

/-!
# Manuals

What a command says about itself: a summary in one line, a longer description, the usage, and lists
of options, escapes and examples. A manual can be read from a text whose sections begin with
headings of their own.
-/

namespace Shellbox

open Text

/-- The description of a command. -/
structure Manual where
  summary : String := ""
  description : String := ""
  usage : String := ""
  options : List String := []
  escapes : List String := []
  examples : List String := []
deriving DecidableEq, Repr

namespace Manual

/-- The sections that have a heading. -/
inductive Section where
  | usage
  | options
  | escapes
  | examples
deriving DecidableEq, Repr

def Section.heading : Section → String
  | .usage => "Usage:"
  | .options => "Options:"
  | .escapes => "Escapes:"
  | .examples => "Examples:"

def Section.ofHeading? (line : String) : Option Section :=
  [usage, options, escapes, examples].find? (·.heading = line)

/-- The summary line without the full stops at its end. -/
def summaryOf (line : String) : String :=
  String.ofList ((trim line).toList.reverse.dropWhile (· = '.')).reverse

/-- Adds a line to a section; of the usage only the first line counts. -/
def addLine (m : Manual) (line : String) : Section → Manual
  | .usage => if m.usage.isEmpty then { m with usage := line } else m
  | .options => { m with options := m.options ++ [line] }
  | .escapes => { m with escapes := m.escapes ++ [line] }
  | .examples => { m with examples := m.examples ++ [line] }

def describe (m : Manual) (line : String) : Manual :=
  { m with
    description := if m.description.isEmpty then line else m.description ++ " " ++ line }

/-- Takes trimmed lines into a manual, from within a section or from before the first. -/
def takeLines (m : Manual) (current : Option Section) : List String → Manual
  | [] => m
  | line :: r =>
    match Section.ofHeading? line with
    | some s => takeLines m (some s) r
    | none =>
      if line.isEmpty then takeLines m current r
      else
        match current with
        | none => takeLines (m.describe line) none r
        | some s => takeLines (m.addLine line s) (some s) r

/-- Reads a manual: the summary comes first, then the description, then the sections. -/
def ofText (text : String) : Manual :=
  match pieces '\n' (trim text) with
  | [] => {}
  | first :: rest => takeLines { summary := summaryOf first } none (rest.map trim)

end Manual

end Shellbox
