import Shellbox.Command.Catalog
import Shellbox.Filesystem.Search

/-!
# Finding files

The command that lists all nodes below a directory whose names a glob accepts.
-/

namespace Shellbox.Command

open Filesystem Text

/-- What `find` is asked for. -/
structure FindRequest where
  path : String
  glob : String
  /-- The only kind of nodes that counts, if any. -/
  kind : Option Kind
deriving DecidableEq, Repr

/-- The request of no arguments: everything below the working directory. -/
def FindRequest.everything : FindRequest := ⟨".", "*", none⟩

/-- Reads the arguments of `find` from the left; a later one takes the place of an earlier one. -/
def FindRequest.read (q : FindRequest) : List String → Except String FindRequest
  | [] => .ok q
  | w :: r =>
    if w = "-name" then
      match r with
      | [] => .error "find: missing argument to '-name'"
      | v :: r => read { q with glob := v } r
    else if w = "-type" then
      match r with
      | [] => .error "find: missing argument to '-type'"
      | v :: r =>
        if v = "f" then read { q with kind := some .file } r
        else if v = "d" then read { q with kind := some .directory } r
        else .error ("find: unknown argument to -type: " ++ v)
    else read { q with path := w } r

/-- The node at a path is of the kind that counts. -/
def hasKind (fs : Filesystem) (kind : Option Kind) (path : String) : Bool :=
  kind.all fun k => (fs.node? (some path)).any (·.kind = k)

def findPaths (fs : Filesystem) (q : FindRequest) : Except Fault Outcome :=
  match fs.find (some q.path) q.glob with
  | .ok found => .ok (.ok (joinLines (found.filter (hasKind fs q.kind))))
  | .error (.path e) => .ok (.error ("find: '" ++ e.shownPath ++ "': " ++ e.reason))
  | .error (.pattern text f) =>
    if f.isMalformed then .ok (.error ("find: invalid pattern: " ++ f.message text))
    else .error (.pattern text f)

/-- Lists nodes below a directory. -/
def find : Handler := .trying fun _ s args _ =>
  match FindRequest.everything.read args with
  | .error m => .ok (.error m)
  | .ok q => findPaths s.fs q

end Shellbox.Command
