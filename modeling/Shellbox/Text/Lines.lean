/-!
# Lines

Texts are cut into pieces at line breaks and joined again. The lines of a text are its pieces,
without the empty piece behind a final line break.
-/

namespace Shellbox.Text

def pieces (c : Char) (s : String) : List String := (s.toList.splitOn c).map String.ofList

def joinLines (ls : List String) : String := "\n".intercalate ls

/-- Drops the last piece if it is empty. -/
def dropLastEmpty (ls : List String) : List String :=
  if ls.getLast? = some "" then ls.dropLast else ls

/-- The lines of a text; a final line break ends the last line and opens none. -/
def lines (s : String) : List String := dropLastEmpty (pieces '\n' s)

def endsWithBreak (s : String) : Bool := s.toList.getLast? = some '\n'

/-- The text without its final line break, if it has one. -/
def dropFinalBreak (s : String) : String :=
  if endsWithBreak s then String.ofList s.toList.dropLast else s

end Shellbox.Text
