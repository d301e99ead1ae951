import Shellbox.Command.Arguments
import Shellbox.Command.Catalog
import Shellbox.Text.Case

/-!
# Changing the tree

The commands that make and remove files and directories. They take their operands in order and stop
at the first that fails; what was done before it stays.
-/

namespace Shellbox.Command

open Filesystem Text

/-- Does something with every operand up to the first that fails. -/
def eachOperand (act : Filesystem → String → Except String Filesystem) (fs : Filesystem) :
    List String → Filesystem × Outcome
  | [] => (fs, .nothing)
  | p :: r =>
    match act fs p with
    | .error m => (fs, .error m)
    | .ok fs => eachOperand act fs r

/-- The session with the filesystem that operands were done in. -/
def withFs (s : Session) (x : Filesystem × Outcome) : Session × Outcome :=
  ({ s with fs := x.1 }, x.2)

/-- Marks a node as modified, or makes an empty file. -/
def touchOne (now : Instant) (fs : Filesystem) (path : String) : Except String Filesystem :=
  if fs.pathExists (some path) then .ok (fs.touchNode now (some path))
  else
    (fs.write now (some path) "").mapError fun e =>
      "touch: cannot touch '" ++ e.shownPath ++ "': " ++ e.reason

/-- Makes empty files and marks nodes as modified. -/
def touch : Handler := .acting fun cx s args =>
  if args.isEmpty then (s, .error "touch: missing file operand")
  else withFs s (eachOperand (touchOne cx.now) s.fs args)

/-- Makes one directory, with the directories on the way to it if asked. -/
def mkdirOne (now : Instant) (parents : Bool) (fs : Filesystem) (path : String) :
    Except String Filesystem :=
  let made :=
    if parents then fs.makeDirectories now (some path) else fs.makeDirectory now (some path)
  made.mapError fun e => "mkdir: cannot create directory '" ++ e.shownPath ++ "': " ++ e.reason

def mkdir : Handler := .acting fun cx s args =>
  let a := Arguments.ofWords args
  if a.operands.isEmpty then (s, .error "mkdir: missing operand")
  else withFs s (eachOperand (mkdirOne cx.now (a.has 'p')) s.fs a.operands)

/-! ## Removal -/

def explosion : String := "
    CRITICAL ERROR: System deletion initiated!

         ,-^^-,
        /  ##  \\
       |  ####  |
       |  ####  |    BOOM!
        \\  ##  /
         '-vv-'

    [====================================]

    Deleting: /dev/null
    Deleting: /dev/zero
    Deleting: /etc/shadow
    Deleting: /boot/vmlinuz
    Deleting: Everything important...

    Just kidding! This is a sandboxed portfolio terminal.
    Nothing was actually deleted. Nice try though!

    Pro tip: Never run 'rm -rf /' on a real system.
        "

/-- Some end of the characters has a property. -/
def anySuffix (p : List Char → Bool) : List Char → Bool
  | [] => p []
  | c :: r => p (c :: r) || anySuffix p r

/-- The spellings of the options that ask for the removal of everything below a directory. -/
def recursionWords : List (List Char) := ["-r", "-rf", "-fr", "--recursive"].map (·.toList)

/-- The operands that mean everything. -/
def everything : List (List Char) := ["/", "/*", "*", "~", "~/"].map (·.toList)

/-- Blanks and then an operand that means everything stand at the front. -/
def beginsEverything (cs : List Char) : Bool :=
  cs.head?.any isBlank && everything.contains ((trimStart cs).takeWhile (!isBlank ·))

/-- An option for recursion and then an operand that means everything stand at the front. -/
def recursionThenEverything (cs : List Char) : Bool :=
  recursionWords.any fun w => (dropFolded? w cs).any beginsEverything

/-- The root and then an option for recursion stand at the front. -/
def rootThenRecursion (cs : List Char) : Bool :=
  let rest := cs.dropWhile (!isBlank ·)
  (["/", "//", "/*"].map (·.toList)).contains (cs.takeWhile (!isBlank ·)) && !rest.isEmpty &&
    recursionWords.any fun w => (dropFolded? w (trimStart rest)).isSome

/-- The words of `rm`, with blanks between them, look like a removal of everything. -/
def isDangerous (args : List String) : Bool :=
  let cs := (" ".intercalate args).toList
  anySuffix recursionThenEverything cs || rootThenRecursion cs ||
    anySuffix (fun t => t.head?.any isBlank && rootThenRecursion t.tail) cs

/-- The options of `rm`, in any spelling. -/
structure RemoveOptions where
  recursive : Bool
  force : Bool
deriving DecidableEq, Repr

def isDashed (w : String) : Bool := w.toList.head? = some '-'

/-- The word is short options in one: a single dash with letters. -/
def isShort (w : String) : Bool := isDashed w && !"--".toList.isPrefixOf w.toList

def RemoveOptions.ofWords (words : List String) : RemoveOptions where
  recursive := words.contains "--recursive" ||
    words.any fun w => isShort w && (w.toList.contains 'r' || w.toList.contains 'R')
  force := words.contains "--force" || words.any fun w => isShort w && w.toList.contains 'f'

def removeMessage (e : PathError) : String :=
  "rm: cannot remove '" ++ e.shownPath ++ "': " ++ e.reason ++
    if e.cause = .notEmpty then " (use -r for recursive)" else ""

/-- Removes one node; a missing one is passed over if asked. -/
def removeOne (now : Instant) (o : RemoveOptions) (fs : Filesystem) (path : String) :
    Except String Filesystem :=
  match fs.remove now (some path) o.recursive with
  | .ok fs => .ok fs
  | .error e =>
    if e.cause = .notFound && o.force then .ok fs else .error (removeMessage e)

def rm : Handler := .acting fun cx s args =>
  if args.isEmpty then (s, .error "rm: missing operand")
  else if isDangerous args then (s, .ok explosion)
  else
    let operands := args.filter (!isDashed ·)
    if operands.isEmpty then (s, .error "rm: missing operand")
    else withFs s (eachOperand (removeOne cx.now (.ofWords args)) s.fs operands)

end Shellbox.Command
