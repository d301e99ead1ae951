import Shellbox.Calendar
import Shellbox.Command.Arguments
import Shellbox.Command.Catalog

/-!
# Where one is and what is there

The commands that show the working directory, change it and list directories.
-/

namespace Shellbox.Command

open Filesystem Text

def pwd : Handler := .looking fun _ s _ _ => .ok s.fs.cwd

def cd : Handler := .acting fun _ s args =>
  match s.fs.changeDirectory args.head? with
  | .error e => (s, .error ("cd: " ++ e.message))
  | .ok fs => ({ s with fs }, .nothing)

def longRow (e : Entry) : Except Fault String :=
  match Calendar.ofLocalSeconds? e.modified with
  | .error f => .error (.date f)
  | .ok c => .ok (e.permissions ++ "  1  user  user  " ++ padLeft 6 (toString e.size) ++ "  " ++
      c.listingText ++ "  " ++ e.name)

/-- The rows of the directory itself and of the one above it. -/
def dotEntries (now : Instant) (count : Nat) : List Entry :=
  [⟨".", .directory, count, permissionText directoryMode, now⟩,
    ⟨"..", .directory, 0, permissionText directoryMode, now⟩]

/-- A listing of rows, long or short. -/
def listing (long : Bool) (es : List Entry) : Except Fault String :=
  if long then (es.mapM longRow).map joinLines
  else .ok ("  ".intercalate (es.map (·.name)))

def ls : Handler := .trying fun cx s args _ =>
  let a := Arguments.ofWords args
  let target := some (a.operands.headD ".")
  match s.fs.list target with
  | .error e => .ok (.error ("ls: cannot access '" ++ e.shownPath ++ "': " ++ e.reason))
  | .ok es =>
    let dots := if s.fs.isDir target && a.has 'a' then dotEntries cx.now es.length else []
    (listing (a.has 'l') (dots ++ es)).map .ok

end Shellbox.Command
