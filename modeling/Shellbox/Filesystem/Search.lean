import Shellbox.Filesystem.Basic
import Shellbox.Pattern.Glob

/-!
# Searching the tree

Nodes are found by a glob on their names, lines by a regular expression on the texts of files. A
pattern that cannot be read is reported before a path that cannot be found.
-/

namespace Shellbox.Filesystem

open Text

/-- Why a search cannot be done. -/
inductive SearchError where
  | pattern (text : String) (fault : Pattern.Fault)
  | path (error : PathError)

/-- A line that a search found. -/
structure LineMatch where
  path : String
  /-- The number of the line, counted from one. -/
  number : Nat
  /-- The line without blanks at its ends. -/
  text : String
deriving DecidableEq, Repr

/-- The paths of the nodes below a directory whose names a glob accepts. -/
def find (fs : Filesystem) (path : Option String) (glob : String) :
    Except SearchError (List String) :=
  match Glob.compile glob with
  | .error f => .error (.pattern (Glob.toRegex glob) f)
  | .ok p =>
    match fs.walk path with
    | .error e => .error (.path e)
    | .ok found => .ok ((found.filter fun x => Glob.accepts p x.2.name).map (·.1))

/-- The files that a search looks at: the file itself, or those in a directory or below it. -/
def searchedFiles (fs : Filesystem) (path : Option String) (recursive : Bool) :
    Except PathError (List (String × Node)) :=
  match fs.node? path with
  | none => .error ⟨path, .notFound⟩
  | some (.file i text) => .ok [(fs.resolve path, .file i text)]
  | some (.dir i cs) =>
    if recursive then
      .ok (((Node.descendants (fs.names path) (.dir i cs)).filter (·.2.isFile)).map
        fun x => (Path.render x.1, x.2))
    else
      .ok ((cs.filter (·.2.isFile)).map fun x => (Path.join (fs.resolve path) x.2.name, x.2))

/-- The lines of one file in which a pattern occurs. -/
def matchingLines (p : Regex) (path : String) (text : String) : List LineMatch :=
  (((pieces '\n' text).zipIdx 1).filter fun x => p.occursIn x.1).map fun x =>
    ⟨path, x.2, trim x.1⟩

/-- The text of a file; a directory has none. -/
def Node.text : Node → String
  | .file _ t => t
  | .dir .. => ""

/-- The lines of files at, in or below a path in which a pattern occurs. -/
def search (fs : Filesystem) (pattern : String) (path : Option String) (recursive : Bool)
    (ignoreCase : Bool) : Except SearchError (List LineMatch) :=
  match Pattern.compile pattern ignoreCase with
  | .error f => .error (.pattern pattern f)
  | .ok p =>
    match fs.searchedFiles path recursive with
    | .error e => .error (.path e)
    | .ok files => .ok (files.flatMap fun x => matchingLines p x.1 x.2.text)

end Shellbox.Filesystem
