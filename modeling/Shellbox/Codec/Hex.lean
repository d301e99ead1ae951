import Shellbox.Codec.Chunk
import Shellbox.Text.Column
import Shellbox.Text.Lines

/-!
# Hexadecimal dumps

A dump shows sixteen bytes a line: the offset, the bytes in pairs, and a gutter with the characters
that print. Reading takes two digits a byte.
-/

namespace Shellbox.Codec.Hex

open Text

/-! ## Writing -/

def rowLength : Nat := 16

/-- The column of a byte in a line, or blanks where the line has no byte. -/
def cell (b : Option UInt8) : List Char :=
  match b with
  | some b => hexDigits 2 b.toNat
  | none => [' ', ' ']

/-- The bytes of a line in pairs, each pair with a blank behind it. -/
def pairs (row : List UInt8) : List Char :=
  (List.range rowLength).flatMap fun i => cell row[i]? ++ (if i % 2 = 1 then [' '] else [])

/-- The character that stands for a byte in the gutter. -/
def gutterChar (b : UInt8) : Char :=
  if 32 ≤ b.toNat && b.toNat ≤ 126 then Char.ofNat b.toNat else '.'

def dumpRow (index : Nat) (row : List UInt8) : String :=
  hex 8 (rowLength * index) ++ ": " ++ String.ofList (pairs row) ++ " " ++
    String.ofList (row.map gutterChar)

def dumpRows (bs : List UInt8) : List String :=
  (chunks rowLength bs).zipIdx.map fun x => dumpRow x.2 x.1

def dump (bs : List UInt8) : String := joinLines (dumpRows bs)

/-! ## Reading -/

/-- The value of a hexadecimal digit of either case. -/
def digitValue? (c : Char) : Option Nat :=
  if '0' ≤ c && c ≤ '9' then some (c.toNat - 48)
  else if 'a' ≤ c && c ≤ 'f' then some (c.toNat - 87)
  else if 'A' ≤ c && c ≤ 'F' then some (c.toNat - 55)
  else none

def isDigit (c : Char) : Bool := (digitValue? c).isSome

/-- The place of what keeps characters from being bytes: a character beyond ASCII if there is one,
else the first that is no digit, else the end behind an odd number of digits. -/
def badPlace? (cs : List Char) : Option Nat :=
  if cs.any (128 ≤ ·.toNat) then cs.findIdx? (128 ≤ ·.toNat)
  else if cs.any (!isDigit ·) then cs.findIdx? (!isDigit ·)
  else if cs.length % 2 = 1 then some cs.length
  else none

def byteOf (ds : List Char) : UInt8 :=
  UInt8.ofNat (ds.foldl (fun n c => n * 16 + (digitValue? c).getD 0) 0)

/-- Reads bytes, or gives the place of what keeps the characters from being bytes. -/
def parse (cs : List Char) : Except Nat (List UInt8) :=
  match badPlace? cs with
  | some n => .error n
  | none => .ok ((chunks 2 cs).map byteOf)

end Shellbox.Codec.Hex
