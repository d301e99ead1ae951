import Shellbox.Text.Digit
import Shellbox.Text.Quoted

/-!
# Numerals

Whole numbers written in the decimal digits of any script. A numeral may have at most 4300 digits,
and a digit that is not decimal spoils it.
-/

namespace Shellbox.Number

open Shellbox.Text

/-- Why a text is no numeral. -/
inductive NumeralFault where
  /-- Too many decimal digits at the front. -/
  | tooLong (digits : Nat)
  /-- Something other than a decimal digit. -/
  | malformed (text : String)
deriving DecidableEq, Repr

def maxDigits : Nat := 4300

def NumeralFault.message : NumeralFault → String
  | .tooLong n => "Exceeds the limit (4300 digits) for integer string conversion: value has " ++
      toString n ++ " digits; use sys.set_int_max_str_digits() to increase the limit"
  | .malformed s => "invalid literal for int() with base 10: " ++
      String.ofList ((quoted s).toList.take 200)

/-- The number that decimal digits denote; other characters count as zeros. -/
def ofDecimals (cs : List Char) : Nat :=
  cs.foldl (fun n c => n * 10 + (decimalValue? c).getD 0) 0

def readNumeral (s : String) : Except NumeralFault Nat :=
  let front := s.toList.takeWhile isDecimal
  if front.length > maxDigits then .error (.tooLong front.length)
  else if s.toList.isEmpty || s.toList.any (!isDecimal ·) then .error (.malformed s)
  else .ok (ofDecimals s.toList)

end Shellbox.Number
