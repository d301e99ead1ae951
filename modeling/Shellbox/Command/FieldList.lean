import Shellbox.Number.Numeral
import Shellbox.Text.Blank
import Shellbox.Text.Lines

/-!
# Lists of fields

A list of fields names positions, counted from one, by single numbers and by ranges with commas
between them. It denotes a set of positions, which is kept in increasing order.
-/

namespace Shellbox.Command

open Text Number

/-- Why a text is no list of fields. -/
inductive FieldFault where
  | badRange (item : String)
  | badValue (item : String)
  | numeral (f : NumeralFault)
deriving DecidableEq, Repr

def FieldFault.message : FieldFault → String
  | .badRange i => "invalid field range '" ++ i ++ "'"
  | .badValue i => "invalid field value '" ++ i ++ "'"
  | .numeral f => f.message

/-- Reads a number that is known to consist of digits. -/
def readField (s : String) : Except FieldFault Nat := (readNumeral s).mapError .numeral

/-- The numbers from `first` to `last`, both included. -/
def numbersBetween (first last : Nat) : List Nat := List.range' first (last + 1 - first)

/-- The numbers that an item denotes: a number alone, or two with a dash between them. -/
def readItem (item : String) : Except FieldFault (List Nat) :=
  let cs := item.toList
  if cs.contains '-' then
    let first := String.ofList (cs.takeWhile (· != '-'))
    let last := String.ofList ((cs.dropWhile (· != '-')).drop 1)
    if isDigits first && isDigits last then do
      let a ← readField first
      let b ← readField last
      .ok (numbersBetween a b)
    else .error (.badRange item)
  else if isDigits item then (readField item).map ([·])
  else .error (.badValue item)

/-- Drops a number equal to the one behind it. -/
def dropRepeats (ns : List Nat) : List Nat :=
  ns.foldr (fun n rest => if rest.head? = some n then rest else n :: rest) []

/-- The positive numbers among some, in increasing order and each once. -/
def increasing (ns : List Nat) : List Nat :=
  dropRepeats ((ns.filter (0 < ·)).mergeSort (· ≤ ·))

def readFields (spec : String) : Except FieldFault (List Nat) :=
  ((pieces ',' spec).mapM fun i => readItem (trim i)).map fun ns => increasing ns.flatten

end Shellbox.Command
