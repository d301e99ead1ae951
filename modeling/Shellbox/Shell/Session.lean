import Shellbox.Filesystem.Starter
import Shellbox.Filesystem.Basic
import Shellbox.Shell.History

/-!
# Sessions

All that one shell changes while it runs: its filesystem, its history, its aliases and the draws
that its random choices will take. Settings stay as they were at the start.
-/

namespace Shellbox

/-- The words that stand for other text at the start of a line, in the order of their definition. -/
abbrev Aliases := List (String × String)

/-- Defines an alias; a new definition takes the place of the old one. -/
def Aliases.define (as : Aliases) (name text : String) : Aliases :=
  if (as.lookup name).isSome then as.map fun a => if a.1 = name then (name, text) else a
  else as ++ [(name, text)]

def Aliases.initial : Aliases :=
  [("ll", "ls -la"), ("la", "ls -a"), ("l", "ls -l"), ("cls", "clear"), ("..", "cd .."),
    ("~", "cd ~")]

/-- What is fixed when a session begins. -/
structure Settings where
  user : String := "guest"
  hostname : String := "portfolio"
  home : String := "/home/user"
  /-- The directory to start in; without one it is the home directory. -/
  initialDirectory : Option String := none
  /-- The prompt without colours; names in braces stand for values. -/
  promptFormat : String := "\x7buser\x7d@\x7bhostname\x7d:\x7bcwd\x7d$ "
  colors : Bool := true
  historyBound : Int := 1000
  aliases : Aliases := Aliases.initial

/-- The state of one shell. -/
structure Session where
  settings : Settings
  fs : Filesystem
  history : History
  aliases : Aliases
  /-- The draws that the next random choices take. -/
  draws : List Int

namespace Session

def create (now : Filesystem.Instant) (settings : Settings) (draws : List Int) :
    Except Filesystem.PathError Session :=
  (Filesystem.create now settings.home Filesystem.Starter.tree settings.initialDirectory).map
    fun fs =>
      { settings, fs, history := .empty settings.historyBound, aliases := settings.aliases, draws }

/-- Makes a random choice: the next draw counts around the choices, and no draw counts as zero. -/
def choose (s : Session) (choices : List String) : String × Session :=
  (choices.getD (s.draws.headD 0 % choices.length).toNat "", { s with draws := s.draws.tail })

end Session

end Shellbox
