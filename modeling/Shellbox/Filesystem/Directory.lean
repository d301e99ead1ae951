import Shellbox.Filesystem.Basic
import Shellbox.Text.Quoted

/-!
# A single directory

Operations on the children of one directory by name, outside of any tree. A name may not hold a
slash, and no two children have the same name.
-/

namespace Shellbox.Filesystem.Directory

open Text

/-- Why an operation on a child fails. -/
inductive Error where
  | slashInName (name : String)
  | taken (name : String)
  | unknown (name : String)
deriving DecidableEq, Repr

def Error.message : Error → String
  | .slashInName n => "node name may not contain '/': " ++ quoted n
  | .taken n => (PathError.mk (some n) .alreadyExists).message
  | .unknown n => quoted n

def checkName (name : String) : Except Error Unit :=
  if name.toList.contains '/' then .error (.slashInName name) else .ok ()

/-- Files a child under its own name behind the others. -/
def add (now : Instant) (dir child : Node) : Except Error Node :=
  match checkName child.name with
  | .error e => .error e
  | .ok () =>
    if (dir.children.lookup child.name).isSome then .error (.taken child.name)
    else .ok (Node.addChild now child dir)

def addFile (now : Instant) (dir : Node) (name content : String) : Except Error Node :=
  add now dir (.newFile now name content)

/-- Adds an empty directory with a mode. -/
def addDirectory (now : Instant) (dir : Node) (name : String) (mode : Int) : Except Error Node :=
  add now dir (.dir ⟨name, mode, now, now⟩ [])

def setContent (now : Instant) (dir : Node) (name content : String) : Except Error Node :=
  match dir.children.lookup name with
  | none => .error (.unknown name)
  | some _ => .ok (dir.modifyAt (.setContent now content) [name])

def remove (now : Instant) (dir : Node) (name : String) : Except Error Node :=
  match dir.children.lookup name with
  | none => .error (.unknown name)
  | some _ => .ok (dir.removeChild now name)

def entries (dir : Node) : List Entry :=
  (dir.children.map fun p => Entry.ofNode p.2).mergeSort Entry.le

end Shellbox.Filesystem.Directory
