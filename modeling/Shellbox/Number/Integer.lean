import Shellbox.Number.Numeral
import Shellbox.Text.Blank

/-!
# Signed numerals

Whole numbers as a person may type them: blanks around, one sign in front, and single underscores
between the digits.
-/

namespace Shellbox.Number

open Shellbox.Text

/-- Digits with single underscores between them; gives the digits alone. -/
def groupedDigits? : List Char → Option (List Char)
  | [] => none
  | [c] => if isDecimal c then some [c] else none
  | c :: '_' :: r => if isDecimal c then (groupedDigits? r).map (c :: ·) else none
  | c :: r => if isDecimal c then (groupedDigits? r).map (c :: ·) else none

/-- The number that unsigned grouped digits denote, unless there are too many of them. -/
def readGrouped? (cs : List Char) : Option Nat :=
  (groupedDigits? cs).bind fun ds => if ds.length > maxDigits then none else some (ofDecimals ds)

/-- A blank that may stand around a numeral; the information separators may not. -/
def isPadding (c : Char) : Bool := isBlank c && !isSeparator c

/-- Reads a signed numeral. -/
def readInteger? (s : String) : Option Int :=
  match ((s.toList.dropWhile isPadding).reverse.dropWhile isPadding).reverse with
  | '-' :: r => (readGrouped? r).map fun n => -(n : Int)
  | '+' :: r => (readGrouped? r).map fun n => (n : Int)
  | r => (readGrouped? r).map fun n => (n : Int)

end Shellbox.Number
