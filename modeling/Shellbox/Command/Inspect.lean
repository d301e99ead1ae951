import Shellbox.Calendar
import Shellbox.Command.Catalog
import Shellbox.FileType

/-!
# What files are

The commands that tell the kind of a file and all that is known of a node.
-/

namespace Shellbox.Command

open Filesystem Text

def typeText (fs : Filesystem) (path : String) : Except Fault String :=
  match fs.node? (some path) with
  | none => .ok "cannot open (No such file or directory)"
  | some (.dir ..) => .ok "directory"
  | some (.file _ text) =>
    match FileType.label text with
    | .ok l => .ok l
    | .error c => .error (.nesting c)

def typeRow (fs : Filesystem) (path : String) : Except Fault String :=
  (typeText fs path).map fun t => path ++ ": " ++ t

def file : Handler := .trying fun _ s args _ =>
  if args.isEmpty then .ok (.error "file: missing file operand")
  else (args.mapM (typeRow s.fs)).map fun rows => .ok (joinLines rows)

def stampText (t : Instant) : Except Fault String :=
  match Calendar.ofLocalSeconds? t with
  | .error f => .error (.date f)
  | .ok c => .ok c.stampText

def kindName : Kind → String
  | .file => "file"
  | .directory => "directory"

/-- All that is known of a node, in lines. -/
def statusText (st : Status) : Except Fault String := do
  let created ← stampText st.created
  let modified ← stampText st.modified
  .ok (joinLines ["  File: " ++ st.name, "  Type: " ++ kindName st.kind,
    "  Size: " ++ toString st.size ++ " bytes", "  Permissions: " ++ st.permissions,
    "  Created: " ++ created, "  Modified: " ++ modified, "  Path: " ++ st.path])

/-- What `stat` says of one path, and whether it succeeded. -/
def statRow (fs : Filesystem) (path : String) : Except Fault (String × Bool) :=
  match fs.stat (some path) with
  | .error e => .ok ("stat: cannot stat '" ++ e.shownPath ++ "': " ++ e.reason, false)
  | .ok st => (statusText st).map fun t => (t, true)

/-- Tells all that is known of nodes; fails if some of them is missing. -/
def stat : Handler := .trying fun _ s args _ =>
  if args.isEmpty then .ok (.error "stat: missing file operand")
  else
    (args.mapM (statRow s.fs)).map fun rows =>
      let output := "\n\n".intercalate (rows.map (·.1))
      if rows.all (·.2) then .ok output else .error output

end Shellbox.Command
