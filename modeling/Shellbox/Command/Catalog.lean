import Shellbox.Command.Manual
import Shellbox.Command.Outcome
import Shellbox.Shell.Session

/-!
# The catalog of commands

Commands are found by name and stand in the order in which their names were first added. Each
belongs to a category; hidden ones are second names that the overview leaves out. A command sees
the pages of the whole catalog, but not the handlers behind them.
-/

namespace Shellbox

open Filesystem

/-- What a command is for. -/
inductive Category where
  | navigation
  | files
  | text
  | encoding
  | utility
  | amusement
deriving DecidableEq, Repr

namespace Category

def all : List Category := [navigation, files, text, encoding, utility, amusement]

def name : Category → String
  | navigation => "navigation"
  | files => "files"
  | text => "text"
  | encoding => "encoding"
  | utility => "utility"
  | amusement => "fun"

def title : Category → String
  | navigation => "NAVIGATION"
  | files => "FILES"
  | text => "TEXT PROCESSING"
  | encoding => "ENCODING"
  | utility => "UTILITY"
  | amusement => "FUN"

def ofName? (n : String) : Option Category := all.find? (·.name = n)

end Category

/-- What the catalog tells about a command. -/
structure Page where
  name : String
  category : Category
  hidden : Bool
  manual : Manual
deriving DecidableEq, Repr

/-- What a command may look at besides its session. -/
structure Context where
  now : Instant
  pages : List Page

/-- What a command does with its arguments and with the text piped into it. -/
abbrev Handler :=
  Context → Session → List String → Option String → Session × Except Fault Reply

namespace Handler

/-- A handler that only looks at the session and answers at once. -/
def looking (f : Context → Session → List String → Option String → Outcome) : Handler :=
  fun cx s args piped => (s, .ok (.ready (f cx s args piped)))

/-- A handler that only looks at the session and may fail to answer. -/
def trying (f : Context → Session → List String → Option String → Except Fault Outcome) :
    Handler :=
  fun cx s args piped => (s, (f cx s args piped).map .ready)

/-- A handler that only looks at the session and answers later. -/
def deferring (f : Context → Session → List String → Option String → Reply) : Handler :=
  fun cx s args piped => (s, .ok (f cx s args piped))

/-- A handler that changes the session and answers at once. -/
def acting (f : Context → Session → List String → Session × Outcome) : Handler :=
  fun cx s args _ => let (s, o) := f cx s args; (s, .ok (.ready o))

end Handler

/-- A command with its page and its handler. -/
structure Builtin where
  page : Page
  handler : Handler

/-- The commands that can be called, in the order of their names. -/
abbrev Catalog := List Builtin

namespace Catalog

def find? (cat : Catalog) (name : String) : Option Builtin :=
  List.find? (fun b => b.page.name = name) cat

def pages (cat : Catalog) : List Page := cat.map (·.page)

/-- Puts a command into the catalog; one of the same name gives its place to it. -/
def put (cat : Catalog) (b : Builtin) : Catalog :=
  if (cat.find? b.page.name).isSome then
    cat.map fun x => if x.page.name = b.page.name then b else x
  else cat ++ [b]

/-- Adds a command under its name, and hidden under other names. -/
def register (cat : Catalog) (name : String) (category : Category) (others : List String)
    (manual : Manual) (handler : Handler) : Catalog :=
  others.foldl (fun cat other => cat.put ⟨⟨other, category, true, manual⟩, handler⟩)
    (cat.put ⟨⟨name, category, false, manual⟩, handler⟩)

/-- Adds a command in a category given by name; there may be no such category. -/
def registerIn? (cat : Catalog) (name : String) (category : String) (others : List String)
    (manual : Manual) (handler : Handler) : Option Catalog :=
  (Category.ofName? category).map fun c => cat.register name c others manual handler

end Catalog

def visiblePages (pages : List Page) (c : Category) : List Page :=
  pages.filter fun p => p.category = c && !p.hidden

end Shellbox
