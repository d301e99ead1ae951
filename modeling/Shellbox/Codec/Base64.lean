import Shellbox.Codec.Chunk

/-!
# Base64

Three bytes are written as four characters of an alphabet of sixty-four; at the end equals signs
fill up. Reading is strict, but unused bits do not matter and neither do equals signs that come too
early to end the text.
-/

namespace Shellbox.Codec.Base64

/-- The character of a number below 64. -/
def digit (n : Nat) : Char :=
  if n < 26 then Char.ofNat (65 + n)
  else if n < 52 then Char.ofNat (71 + n)
  else if n < 62 then Char.ofNat (n - 4)
  else if n = 62 then '+'
  else '/'

def digitValue? (c : Char) : Option Nat :=
  if 'A' ≤ c && c ≤ 'Z' then some (c.toNat - 65)
  else if 'a' ≤ c && c ≤ 'z' then some (c.toNat - 71)
  else if '0' ≤ c && c ≤ '9' then some (c.toNat + 4)
  else if c = '+' then some 62
  else if c = '/' then some 63
  else none

/-- Up to three bytes as four characters. -/
def encodeChunk : List UInt8 → List Char
  | [] => []
  | [a] => [digit (a.toNat / 4), digit (a.toNat % 4 * 16), '=', '=']
  | [a, b] =>
    [digit (a.toNat / 4), digit (a.toNat % 4 * 16 + b.toNat / 16), digit (b.toNat % 16 * 4), '=']
  | a :: b :: c :: _ =>
    [digit (a.toNat / 4), digit (a.toNat % 4 * 16 + b.toNat / 16),
      digit (b.toNat % 16 * 4 + c.toNat / 64), digit (c.toNat % 64)]

def encode (bs : List UInt8) : List Char := (chunks 3 bs).flatMap encodeChunk

/-- Why characters cannot be read. -/
inductive Fault where
  | notAscii
  | leadingPadding
  | dataAfterPadding
  | foreignCharacter
  | interruptedPadding
  | loneDigit (digits : Nat)
  | missingPadding
deriving DecidableEq, Repr

def Fault.message : Fault → String
  | .notAscii => "string argument should contain only ASCII characters"
  | .leadingPadding => "Leading padding not allowed"
  | .dataAfterPadding => "Excess data after padding"
  | .foreignCharacter => "Only base64 data is allowed"
  | .interruptedPadding => "Discontinuous padding not allowed"
  | .loneDigit n => "Invalid base64-encoded string: number of data characters (" ++ toString n ++
      ") cannot be 1 more than a multiple of 4"
  | .missingPadding => "Incorrect padding"

/-- The numbers read so far, last first, with how many there are and what padding there was. -/
structure Progress where
  digits : List Nat
  count : Nat
  /-- The equals signs that count, since two digits of a quadruple were read. -/
  pads : Nat
  padded : Bool

def readDigits (p : Progress) : List Char → Except Fault (List Nat)
  | [] =>
    if p.count % 4 = 0 then .ok p.digits.reverse
    else if p.count % 4 = 1 then .error (.loneDigit p.count)
    else .error .missingPadding
  | c :: r =>
    if c = '=' then
      if p.count % 4 < 2 then readDigits { p with padded := true } r
      else if p.count % 4 + (p.pads + 1) ≥ 4 then
        if r.isEmpty then .ok p.digits.reverse else .error .dataAfterPadding
      else readDigits { p with padded := true, pads := p.pads + 1 } r
    else
      match digitValue? c with
      | none => .error .foreignCharacter
      | some n =>
        if p.padded then .error .interruptedPadding
        else readDigits { p with digits := n :: p.digits, count := p.count + 1 } r

/-- Up to four numbers as up to three bytes. -/
def decodeChunk : List Nat → List UInt8
  | a :: b :: c :: d :: _ =>
    [UInt8.ofNat (a * 4 + b / 16), UInt8.ofNat (b % 16 * 16 + c / 4), UInt8.ofNat (c % 4 * 64 + d)]
  | [a, b, c] => [UInt8.ofNat (a * 4 + b / 16), UInt8.ofNat (b % 16 * 16 + c / 4)]
  | [a, b] => [UInt8.ofNat (a * 4 + b / 16)]
  | _ => []

def decode (cs : List Char) : Except Fault (List UInt8) :=
  if cs.any (128 ≤ ·.toNat) then .error .notAscii
  else if cs.head? = some '=' then .error .leadingPadding
  else (readDigits ⟨[], 0, 0, false⟩ cs).map fun ds => (chunks 4 ds).flatMap decodeChunk

end Shellbox.Codec.Base64
