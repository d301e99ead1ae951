import Shellbox.Pattern.Compile
import Shellbox.Pattern.Matcher

/-!
# Globs

A glob is a pattern for a whole name. A star stands for any run of characters, a question mark for
one character and a full stop for itself; every other character keeps the meaning that it has in a
regular expression. Letter case does not count.
-/

namespace Shellbox.Glob

/-- The regular expression of one character of a glob. -/
def charRegex : Char → List Char
  | '.' => ['\\', '.']
  | '*' => ['.', '*']
  | '?' => ['.']
  | c => [c]

/-- The regular expression of a glob, without the anchors. -/
def body (glob : String) : String := String.ofList (glob.toList.flatMap charRegex)

/-- The regular expression of a glob, from the start of a name to its end. -/
def toRegex (glob : String) : String := "^" ++ body glob ++ "$"

def compile (glob : String) : Except Pattern.Fault Regex := Pattern.compile (toRegex glob) true

/-- The name matches the pattern of a glob. -/
def accepts (r : Regex) (name : String) : Bool := r.matchesStart name

end Shellbox.Glob
