import Shellbox.Text.Blank

/-!
# The history of a session

The latest lines of a session, oldest first, up to a greatest number. Blank lines and a line equal
to the one just before it are not kept.
-/

namespace Shellbox

open Text

/-- The latest lines and how many of them are kept; a bound below zero keeps none. -/
structure History where
  bound : Int
  entries : List String
deriving DecidableEq, Repr

namespace History

/-- A history without lines. -/
def empty (bound : Int) : History := ⟨bound, []⟩

def accepts (h : History) (line : String) : Bool :=
  !isAllBlank line && h.entries.getLast? != some line

/-- Adds a line, if it is kept; the oldest goes when there are too many. -/
def add (h : History) (line : String) : History :=
  if h.accepts line then
    let entries := h.entries ++ [line]
    { h with entries := if (entries.length : Int) > h.bound then entries.drop 1 else entries }
  else h

def clear (h : History) : History := { h with entries := [] }

end History

end Shellbox
