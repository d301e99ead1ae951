import Shellbox.Pattern.Compile
import Shellbox.Pattern.Matcher
import Shellbox.Text.Json
import Shellbox.Text.Lines

/-!
# Kinds of file content

A label for the text of a file. The rules are tried in order and the first that fits gives the
label.
-/

namespace Shellbox.FileType

open Text

def shows (flags : Pattern.Flags) (pattern : String) (s : String) : Bool :=
  (Pattern.ofText flags pattern).toOption.any (·.occursIn s)

/-- A document type line for HTML, or an HTML element, stands at the start. -/
def isHtml (s : String) : Bool := shows { ignoreCase := true } "\\A(?:<!DOCTYPE\\s+html|<html)" s

def importsModule (s : String) : Bool :=
  shows { multiline := true } "^import\\s+|^from\\s+.*\\s+import" s

/-- The text begins and ends with the brackets of a JSON array or object. -/
def isBracketed (cs : List Char) : Bool :=
  (cs.head? = some '\x7b' && cs.getLast? = some '\x7d') ||
    (cs.head? = some '[' && cs.getLast? = some ']')

/-- A control character other than a tab, a line feed and a carriage return. -/
def isControl (c : Char) : Bool :=
  c.toNat < 32 && c.toNat != 9 && c.toNat != 10 && c.toNat != 13

/-- Given characters occur one after the other. -/
def contains (needle : List Char) : List Char → Bool
  | [] => needle.isEmpty
  | c :: r => needle.isPrefixOf (c :: r) || contains needle r

/-- The label of a script by its first line. -/
def scriptLabel (firstLine : List Char) : String :=
  if contains "bash".toList firstLine then "Bash script"
  else if contains "python".toList firstLine then "Python script"
  else if contains "sh".toList firstLine then "Shell script"
  else "script"

def bracketedLabel (s : String) : Except Json.Container String :=
  (Json.isValue (trim s)).map fun b => if b then "JSON data" else "ASCII text"

/-- The label of a text that shows no format by its beginning. -/
def plainLabel (s : String) : String :=
  let cs := s.toList
  if importsModule s then "Python script"
  else if cs.any isControl then "data"
  else if cs.isEmpty then "empty"
  else "ASCII text"

def label (s : String) : Except Json.Container String :=
  let cs := s.toList
  let starts (mark : String) : Bool := mark.toList.isPrefixOf cs
  if starts "PK" then .ok "Zip archive data"
  else if starts "%PDF" then .ok "PDF document"
  else if isHtml s then .ok "HTML document"
  else if starts "<?xml" then .ok "XML document"
  else if isBracketed (trimChars cs) then bracketedLabel s
  else if starts "#!" then .ok (scriptLabel (cs.takeWhile (· != '\n')))
  else .ok (plainLabel s)

end Shellbox.FileType
