import Shellbox.Text.Blank
import Shellbox.Text.Digit

/-!
# Leading numbers as order keys

The number at the front of a line, rounded to the nearest double and kept as a whole multiple of the
least positive one, so that keys compare exactly. Numbers beyond the greatest double are infinite,
and both zeros are the same.
-/

namespace Shellbox.Number

open Text

/-- The order of a double that is a number: finite ones count in units of `2 ^ -1074`. -/
inductive Binary64 where
  | negInfinity
  | finite (units : Int)
  | posInfinity
deriving DecidableEq, Repr

namespace Binary64

/-- The double zero. -/
def zero : Binary64 := finite 0

def le : Binary64 → Binary64 → Bool
  | negInfinity, _ => true
  | _, posInfinity => true
  | finite a, finite b => a ≤ b
  | _, _ => false

/-- A quotient rounded to the nearest whole number; a half goes to the even neighbour. -/
def roundDiv (num den : Nat) : Nat :=
  let q := num / den
  let r := num % den
  if 2 * r > den || (2 * r == den && q % 2 == 1) then q + 1 else q

/-- The exponent of the first unit that doubles count in no more. -/
def overflowExponent : Nat := 1024 + 1074

/-- A quotient in units, rounded to 53 binary digits; `none` if it is beyond all doubles. -/
def unitsOf? (num den : Nat) : Option Nat :=
  let scaled := num <<< 1074
  let q := scaled / den
  let shift := if q = 0 then 0 else q.log2 + 1 - 53
  let units := roundDiv scaled (den <<< shift) <<< shift
  if units ≥ 1 <<< overflowExponent then none else some units

def decimalUnits? (digits : Nat) (exponent : Int) : Option Nat :=
  let size := (toString digits).length + exponent
  if digits = 0 || size < -400 then some 0
  else if size > 400 then none
  else if exponent ≥ 0 then unitsOf? (digits * Nat.pow 10 exponent.toNat) 1
  else unitsOf? digits (Nat.pow 10 (-exponent).toNat)

/-- The double of a signed decimal number. -/
def ofDecimal (negative : Bool) (digits : Nat) (exponent : Int) : Binary64 :=
  match decimalUnits? digits exponent, negative with
  | some n, false => finite n
  | some n, true => finite (-(n : Int))
  | none, false => posInfinity
  | none, true => negInfinity

end Binary64

/-! ## The number at the front of a line -/

def digitsValue (cs : List Char) : Nat :=
  cs.foldl (fun n c => n * 10 + (decimalValue? c).getD 0) 0

/-- A sign at the front, and the rest. -/
def takeSign : List Char → Bool × List Char
  | '-' :: r => (true, r)
  | '+' :: r => (false, r)
  | r => (false, r)

/-- The decimal digits at the front, and the rest. -/
def takeDigits (cs : List Char) : List Char × List Char :=
  (cs.takeWhile isDecimal, cs.dropWhile isDecimal)

/-- The exponent at the front and the rest; without digits there is no exponent. -/
def takeExponent (cs : List Char) : Int × List Char :=
  match cs with
  | e :: r =>
    let (negative, r) := takeSign r
    let (digits, rest) := takeDigits r
    if (e = 'e' || e = 'E') && !digits.isEmpty then
      (if negative then -(digitsValue digits : Int) else digitsValue digits, rest)
    else (0, cs)
  | [] => (0, cs)

/-- The digits before and behind the point at the front, and the rest; at least one digit. -/
def takeMantissa? (cs : List Char) : Option (List Char × List Char × List Char) :=
  let (whole, r) := takeDigits cs
  match r with
  | '.' :: r' =>
    let (fraction, r'') := takeDigits r'
    if whole.isEmpty && fraction.isEmpty then none else some (whole, fraction, r'')
  | r => if whole.isEmpty then none else some (whole, [], r)

/-- The number at the front of a text that does not begin with a blank, and what is behind it. -/
def takeNumber? (cs : List Char) : Option (Binary64 × List Char) :=
  let (negative, r) := takeSign cs
  (takeMantissa? r).map fun (whole, fraction, r) =>
    let (exponent, rest) := takeExponent r
    (.ofDecimal negative (digitsValue (whole ++ fraction)) (exponent - fraction.length), rest)

/--
The number at the front of a line, after blanks; a line without a number counts as zero. A number
with an information separator among those blanks cannot be read; the error holds its text from the
start of the line.
-/
def leadingNumber (line : String) : Except String Binary64 :=
  let cs := line.toList
  match takeNumber? (trimStart cs) with
  | none => .ok .zero
  | some (n, rest) =>
    if (cs.takeWhile isBlank).any isSeparator then
      .error (String.ofList (cs.take (cs.length - rest.length)))
    else .ok n

end Shellbox.Number
