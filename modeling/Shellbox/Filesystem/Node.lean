import Shellbox.Filesystem.Permissions

/-!
# Nodes of the tree

A node is a file with a text or a directory with children in the order in which they were added. A
node knows its own name, and a directory files each child under a key; that the two agree is an
invariant of the operations, not of the type. Look-up and change follow a list of keys from a node
down.
-/

namespace Shellbox.Filesystem

/-- Whole seconds since the start of 1970. -/
abbrev Instant := Int

/-- What is known of a node besides its content. -/
structure Info where
  name : String
  mode : Int
  created : Instant
  modified : Instant
deriving DecidableEq, Repr

/-- A file or a directory. -/
inductive Node where
  | file (info : Info) (content : String)
  | dir (info : Info) (children : List (String × Node))

/-- The two kinds of nodes. -/
inductive Kind where
  | file
  | directory
deriving DecidableEq, Repr

namespace Node

/-- The name, the mode and the times of a node. -/
def info : Node → Info
  | file i _ => i
  | dir i _ => i

/-- The name that a node carries; the root has the empty name. -/
def name (n : Node) : String := n.info.name

/-- Whether a node is a file or a directory. -/
def kind : Node → Kind
  | file .. => .file
  | dir .. => .directory

def isDir : Node → Bool
  | file .. => false
  | dir .. => true

def isFile : Node → Bool
  | file .. => true
  | dir .. => false

/-- The children of a directory; a file has none. -/
def children : Node → List (String × Node)
  | file .. => []
  | dir _ cs => cs

/-- The bytes of a file's text in UTF-8, or the number of a directory's children. -/
def size : Node → Nat
  | file _ text => text.utf8ByteSize
  | dir _ cs => cs.length

def permissions (n : Node) : String := permissionText n.info.mode

def newFile (now : Instant) (name content : String) : Node :=
  file ⟨name, fileMode, now, now⟩ content

/-- An empty directory made now. -/
def newDir (now : Instant) (name : String := "") : Node := dir ⟨name, directoryMode, now, now⟩ []

/-- Changes what is known of a node. -/
def withInfo (f : Info → Info) : Node → Node
  | file i text => file (f i) text
  | dir i cs => dir (f i) cs

def touch (now : Instant) : Node → Node := withInfo ({ · with modified := now })

/-- Gives a file a new text; a directory stays as it is. -/
def setContent (now : Instant) (content : String) : Node → Node
  | file i _ => file { i with modified := now } content
  | dir i cs => dir i cs

/-- Files a child under its own name behind the others; a file stays as it is. -/
def addChild (now : Instant) (child : Node) : Node → Node
  | file i text => file i text
  | dir i cs => dir { i with modified := now } (cs ++ [(child.name, child)])

/-- Removes the child that is filed under a name; a file stays as it is. -/
def removeChild (now : Instant) (name : String) : Node → Node
  | file i text => file i text
  | dir i cs => dir { i with modified := now } (cs.filter (·.1 ≠ name))

/-- Changes the child that is filed under a name. -/
def updateChild (name : String) (f : Node → Node) (cs : List (String × Node)) :
    List (String × Node) :=
  cs.map fun p => if p.1 = name then (p.1, f p.2) else p

/-! ## Along a list of names -/

/-- The node that a list of names leads to. -/
def get? : Node → List String → Option Node
  | n, [] => some n
  | file .., _ :: _ => none
  | dir _ cs, s :: r => (cs.lookup s).bind (·.get? r)

/-- Changes the node that a list of names leads to; where there is none, nothing changes. -/
def modifyAt (f : Node → Node) : Node → List String → Node
  | n, [] => f n
  | file i text, _ :: _ => file i text
  | dir i cs, s :: r => dir i (updateChild s (modifyAt f · r) cs)

/-- A new directory of a name that holds a chain of new directories with the given names. -/
def newChain (now : Instant) (name : String) : List String → Node
  | [] => newDir now name
  | s :: r => addChild now (newChain now s r) (newDir now name)

/-- Makes directories along a list of names where they are missing; a file on the way stops it. -/
def ensureDirs (now : Instant) : Node → List String → Option Node
  | n, [] => some n
  | file .., _ :: _ => none
  | dir i cs, s :: r =>
    match cs.lookup s with
    | none => some (addChild now (newChain now s r) (dir i cs))
    | some (file ..) => none
    | some child => (ensureDirs now child r).map fun made => dir i (updateChild s (fun _ => made) cs)

/-! ## Everything below a node -/

mutual
/--
All nodes below a node with their keys from the start of `base` on: a child comes before what is
below it, and children come in their order.
-/
def descendants (base : List String) : Node → List (List String × Node)
  | file .. => []
  | dir _ cs => descendantsOfAll base cs
termination_by structural n => n

/-- The given children and all that is below them. -/
def descendantsOfAll (base : List String) : List (String × Node) → List (List String × Node)
  | [] => []
  | p :: r => descendantsOfOne base p ++ descendantsOfAll base r
termination_by structural cs => cs

/-- A child and all that is below it. -/
def descendantsOfOne (base : List String) : String × Node → List (List String × Node)
  | (key, n) => (base ++ [key], n) :: descendants (base ++ [key]) n
termination_by structural p => p
end

end Node

end Shellbox.Filesystem
