import Shellbox.Filesystem.Error
import Shellbox.Filesystem.Node
import Shellbox.Filesystem.Path

/-!
# The filesystem

A tree of nodes, a home directory and a working directory. Every operation resolves its path first
and then works on the names in it. An operation that fails leaves the filesystem as it was; those
that change it take the present time.
-/

namespace Shellbox

open Filesystem

/-- A tree of nodes with a home directory and a working directory. -/
structure Filesystem where
  root : Node
  home : String
  /-- The absolute path of the working directory; the directory itself may have been removed. -/
  cwd : String

namespace Filesystem

/-- A row of a directory listing. -/
structure Entry where
  name : String
  kind : Kind
  size : Nat
  permissions : String
  modified : Instant
deriving DecidableEq, Repr

/-- What is told about a single node. -/
structure Status where
  name : String
  kind : Kind
  size : Nat
  permissions : String
  created : Instant
  modified : Instant
  path : String
deriving DecidableEq, Repr

def Entry.ofNode (n : Node) : Entry := ⟨n.name, n.kind, n.size, n.permissions, n.info.modified⟩

/-- Directories come before files, and each group is in the order of names. -/
def Entry.le (a b : Entry) : Bool :=
  match a.kind, b.kind with
  | .directory, .file => true
  | .file, .directory => false
  | _, _ => a.name ≤ b.name

/-! ## Finding nodes -/

def resolve (fs : Filesystem) (path : Option String) : String := Path.resolve fs.home fs.cwd path

/-- The names on the way from the root to a path. -/
def names (fs : Filesystem) (path : Option String) : List String :=
  Path.segments (fs.resolve path)

def node? (fs : Filesystem) (path : Option String) : Option Node := fs.root.get? (fs.names path)

def pathExists (fs : Filesystem) (path : Option String) : Bool := (fs.node? path).isSome

def isDir (fs : Filesystem) (path : Option String) : Bool := (fs.node? path).any (·.isDir)

def isFile (fs : Filesystem) (path : Option String) : Bool := (fs.node? path).any (·.isFile)

/-! ## Questions -/

/-- The children of a directory as sorted rows, or the row of a file. -/
def list (fs : Filesystem) (path : Option String) : Except PathError (List Entry) :=
  match fs.node? path with
  | none => .error ⟨path, .notFound⟩
  | some (.file i text) => .ok [.ofNode (.file i text)]
  | some (.dir _ cs) => .ok ((cs.map fun p => Entry.ofNode p.2).mergeSort Entry.le)

def read (fs : Filesystem) (path : Option String) : Except PathError String :=
  match fs.node? path with
  | none => .error ⟨path, .notFound⟩
  | some (.file _ text) => .ok text
  | some (.dir ..) => .error ⟨path, .isDirectory⟩

/-- What is told about the node at a path. -/
def stat (fs : Filesystem) (path : Option String) : Except PathError Status :=
  match fs.node? path with
  | none => .error ⟨path, .notFound⟩
  | some n => .ok
      { name := if n.name.isEmpty then "/" else n.name
        kind := n.kind
        size := n.size
        permissions := n.permissions
        created := n.info.created
        modified := n.info.modified
        path := fs.resolve path }

/-- All nodes below a directory with their paths, each before what is below it. A tree is walked to
any depth; that a stack may end before is left out. -/
def walk (fs : Filesystem) (path : Option String) : Except PathError (List (String × Node)) :=
  match fs.node? path with
  | none => .error ⟨path, .notFound⟩
  | some (.file ..) => .error ⟨path, .notDirectory⟩
  | some (.dir i cs) =>
    .ok ((Node.descendants (fs.names path) (.dir i cs)).map fun p => (Path.render p.1, p.2))

/-! ## Changes -/

/-- Changes the node that names lead to from the root. -/
def modifyAt (fs : Filesystem) (names : List String) (f : Node → Node) : Filesystem :=
  { fs with root := fs.root.modifyAt f names }

/-- The children of the directory that holds, or would hold, the node at a path. -/
def siblings (fs : Filesystem) (path : Option String) :
    Except PathError (List (String × Node)) :=
  match fs.root.get? (fs.names path).dropLast with
  | none => .error ⟨path, .notFound⟩
  | some (.file ..) => .error ⟨path, .notDirectory⟩
  | some (.dir _ cs) => .ok cs

/-- Where a change of directory leads; without a path, or with an empty one, it leads home. -/
def destination : Option String → String
  | none => "~"
  | some p => if p.isEmpty then "~" else p

def changeDirectory (fs : Filesystem) (path : Option String) : Except PathError Filesystem :=
  match fs.node? (some (destination path)) with
  | none => .error ⟨some (destination path), .notFound⟩
  | some (.file ..) => .error ⟨some (destination path), .notDirectory⟩
  | some (.dir ..) => .ok { fs with cwd := fs.resolve (some (destination path)) }

/-- Makes a file with a text, or gives a file a new text. -/
def write (fs : Filesystem) (now : Instant) (path : Option String) (content : String) :
    Except PathError Filesystem :=
  match fs.siblings path with
  | .error e => .error e
  | .ok cs =>
    match (fs.names path).getLast? with
    | none => .error ⟨path, .isDirectory⟩
    | some name =>
      match cs.lookup name with
      | none => .ok (fs.modifyAt (fs.names path).dropLast
          (.addChild now (.newFile now name content)))
      | some (.file ..) => .ok (fs.modifyAt (fs.names path) (.setContent now content))
      | some (.dir ..) => .error ⟨path, .isDirectory⟩

def makeDirectory (fs : Filesystem) (now : Instant) (path : Option String) :
    Except PathError Filesystem :=
  match fs.siblings path with
  | .error e => .error e
  | .ok cs =>
    match (fs.names path).getLast? with
    | none => .error ⟨path, .alreadyExists⟩
    | some name =>
      match cs.lookup name with
      | none => .ok (fs.modifyAt (fs.names path).dropLast (.addChild now (.newDir now name)))
      | some _ => .error ⟨path, .alreadyExists⟩

/-- Makes a directory and all that are missing on the way to it. -/
def makeDirectories (fs : Filesystem) (now : Instant) (path : Option String) :
    Except PathError Filesystem :=
  match fs.root.ensureDirs now (fs.names path) with
  | none => .error ⟨path, .notDirectory⟩
  | some root => .ok { fs with root }

/-- Removes a file or a directory; one that holds anything goes only when asked to recurse. -/
def remove (fs : Filesystem) (now : Instant) (path : Option String) (recursive : Bool) :
    Except PathError Filesystem :=
  match (fs.names path).getLast? with
  | none => .error ⟨path, .notPermitted⟩
  | some name =>
    match fs.siblings path with
    | .error e => .error e
    | .ok cs =>
      match cs.lookup name with
      | none => .error ⟨path, .notFound⟩
      | some n =>
        if n.isDir && !n.children.isEmpty && !recursive then .error ⟨path, .notEmpty⟩
        else .ok (fs.modifyAt (fs.names path).dropLast (.removeChild now name))

/-- Marks the node at a path, if there is one, as modified now. -/
def touchNode (fs : Filesystem) (now : Instant) (path : Option String) : Filesystem :=
  fs.modifyAt (fs.names path) (.touch now)

/-! ## Filling a tree -/

/-- The path of the directory that holds the node at a path. -/
def holderPath (fs : Filesystem) (path : String) : String :=
  Path.render (fs.names (some path)).dropLast

/-- What an operation leaves: its result, or on failure the filesystem as it was. -/
def attempt (fs : Filesystem) :
    Except PathError Filesystem → Filesystem × Except PathError Unit
  | .error e => (fs, .error e)
  | .ok fs' => (fs', .ok ())

/-- Makes a file with a text, or a directory, and all directories missing on the way. -/
def plant (fs : Filesystem) (now : Instant) (path : String) (content : Option String) :
    Filesystem × Except PathError Unit :=
  match content with
  | none => fs.attempt (fs.makeDirectories now (some path))
  | some text =>
    match fs.makeDirectories now (some (fs.holderPath path)) with
    | .error e => (fs, .error e)
    | .ok made => made.attempt (made.write now (some path) text)

/-- Plants paths in turn up to the first that fails; those before it stay. -/
def populate (fs : Filesystem) (now : Instant) :
    List (String × Option String) → Filesystem × Except PathError Unit
  | [] => (fs, .ok ())
  | (path, content) :: rest =>
    match fs.plant now path content with
    | (fs, .ok ()) => fs.populate now rest
    | (fs, .error e) => (fs, .error e)

/-- A filesystem with an empty root. -/
def empty (now : Instant) (home : String) : Filesystem := ⟨.newDir now, home, "/"⟩

/-- Moves the working directory to a path if a directory is there. -/
def startAt (fs : Filesystem) (path : String) : Filesystem :=
  if fs.isDir (some path) then { fs with cwd := fs.resolve (some path) } else fs

/-- The directory to start in: the initial one if it is named, else the home directory. -/
def startPath (home : String) : Option String → String
  | none => home
  | some d => if d.isEmpty then home else d

/--
A filesystem with the given content. It starts in the initial directory, or in the home directory
if none is named, or at the root if there is no such directory.
-/
def create (now : Instant) (home : String) (tree : List (String × Option String))
    (initial : Option String) : Except PathError Filesystem :=
  match (empty now home).populate now tree with
  | (_, .error e) => .error e
  | (fs, .ok ()) => .ok (fs.startAt (startPath home initial))

end Filesystem

end Shellbox
