import Shellbox.Text.Column
import Shellbox.Text.Printable

/-!
# Quoted texts

A text in quotes for use inside a message. Single quotes are preferred; double quotes stand around a
text that holds a single quote and no double one. Characters that do not print are written by
number.
-/

namespace Shellbox.Text

/-- One character of a text quoted with `q`; the characters that `shows` allows stand as they
are. -/
def quotedChar (shows : Char → Bool) (q c : Char) : List Char :=
  if c = q ∨ c = '\\' then ['\\', c]
  else if c = '\n' then ['\\', 'n']
  else if c = '\t' then ['\\', 't']
  else if c = '\r' then ['\\', 'r']
  else if shows c then [c]
  else if c.toNat < 0x100 then '\\' :: 'x' :: hexDigits 2 c.toNat
  else if c.toNat < 0x10000 then '\\' :: 'u' :: hexDigits 4 c.toNat
  else '\\' :: 'U' :: hexDigits 8 c.toNat

def quoteMarkFor (cs : List Char) : Char :=
  if cs.contains '\'' && !cs.contains '"' then '"' else '\''

/-- A text in quotes, with escapes for the characters that `shows` does not allow. -/
def quotedWith (shows : Char → Bool) (s : String) : String :=
  let q := quoteMarkFor s.toList
  String.ofList (q :: s.toList.flatMap (quotedChar shows q) ++ [q])

/-- A text in quotes, with escapes for the characters that do not print. -/
def quoted (s : String) : String := quotedWith isPrintable s

/-- A text in quotes, in ASCII only. -/
def quotedPlain (s : String) : String :=
  quotedWith (fun c => isPrintable c && c.toNat < 0x80) s

end Shellbox.Text
