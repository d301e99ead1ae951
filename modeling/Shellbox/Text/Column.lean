/-!
# Columns

Padding of texts to a width, and numbers in a fixed number of hexadecimal digits.
-/

namespace Shellbox.Text

/-- Puts blanks in front until the text has the width. -/
def padLeft (width : Nat) (s : String) : String :=
  "".pushn ' ' (width - s.length) ++ s

/-- Puts blanks behind until the text has the width. -/
def padRight (width : Nat) (s : String) : String :=
  s.pushn ' ' (width - s.length)

/-- The hexadecimal digits of a number, in lower case and at least `width` of them. -/
def hexDigits (width n : Nat) : List Char :=
  let ds := Nat.toDigits 16 n
  List.replicate (width - ds.length) '0' ++ ds

/-- The hexadecimal form of a number, in lower case and at least `width` digits long. -/
def hex (width n : Nat) : String := String.ofList (hexDigits width n)

/-- A number in decimal, with zeros in front until it has the width. -/
def padZeros (width n : Nat) : String :=
  let s := toString n
  "".pushn '0' (width - s.length) ++ s

end Shellbox.Text
