import Shellbox.Command.Catalog
import Shellbox.Text.Column

/-!
# Help

The commands that show what the catalog tells about commands: an overview, short help and full
manual pages.
-/

namespace Shellbox.Command

open Text

def pageOf? (pages : List Page) (name : String) : Option Page := pages.find? (·.name = name)

def overviewRow (p : Page) : String := "  " ++ padRight 12 p.name ++ p.manual.summary

/-- The rows of a category under its title; a category without commands has none. -/
def overviewSection (pages : List Page) (c : Category) : List String :=
  let rows := (visiblePages pages c).map overviewRow
  if rows.isEmpty then [] else c.title :: rows ++ [""]

def overviewLines (pages : List Page) : List String :=
  ["Available commands:", ""] ++ Category.all.flatMap (overviewSection pages) ++
    ["Type 'help <command>' for detailed information about a specific command.",
      "Type 'man <command>' for full manual pages."]

/-- The usage of a command, or its name when the manual shows none. -/
def usageOf (p : Page) : String := if p.manual.usage.isEmpty then p.name else p.manual.usage

def headline (p : Page) : String := p.name ++ " - " ++ p.manual.summary

def helpLines (p : Page) : List String :=
  [headline p, "", "Usage: " ++ usageOf p] ++
    (if p.manual.description.isEmpty then [] else ["", p.manual.description]) ++
    (if p.manual.options.isEmpty then []
      else ["", "Options:"] ++ p.manual.options.map ("  " ++ ·))

/-- Shows the overview, or short help on a command. -/
def help : Handler := .looking fun cx _ args _ =>
  match args with
  | [] => .ok (joinLines (overviewLines cx.pages))
  | name :: _ =>
    match pageOf? cx.pages name with
    | none => .error ("help: no help topics match '" ++ name ++ "'")
    | some p => .ok (joinLines (helpLines p))

/-- A section of a manual page; one without lines is left out. -/
def manualSection (heading : String) (body : List String) : List String :=
  if body.isEmpty then [] else heading :: body.map ("    " ++ ·) ++ [""]

def manualLines (p : Page) : List String :=
  let m := p.manual
  manualSection "NAME" [headline p] ++ manualSection "SYNOPSIS" [usageOf p] ++
    manualSection "DESCRIPTION"
      [if m.description.isEmpty then m.summary ++ "." else m.description] ++
    manualSection "OPTIONS" m.options ++ manualSection "ESCAPE SEQUENCES" m.escapes ++
    manualSection "EXAMPLES" m.examples

def man : Handler := .looking fun cx _ args _ =>
  match args with
  | [] => .error "What manual page do you want?\nFor example, try \"man echo\""
  | name :: _ =>
    match pageOf? cx.pages name with
    | none => .error ("No manual entry for " ++ name)
    | some p => .ok (joinLines (manualLines p))

end Shellbox.Command
