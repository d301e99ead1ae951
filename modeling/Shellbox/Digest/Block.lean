import Shellbox.Codec.Chunk
import Shellbox.Text.Column

/-!
# Messages in blocks

Digests read a message in blocks of sixty-four bytes. A one bit, zeros and the length of the message
in bits fill up the last block.
-/

namespace Shellbox.Digest

open Codec Text

/-- Turns the bits of a word to the left around the end. -/
def rotateLeft (x : UInt32) (n : UInt32) : UInt32 := (x <<< n) ||| (x >>> (32 - n))

/-- Turns the bits of a word to the right around the end. -/
def rotateRight (x : UInt32) (n : UInt32) : UInt32 := (x >>> n) ||| (x <<< (32 - n))

/-- The eight bytes of a number, the lowest first. -/
def lowFirst (n : Nat) : List UInt8 := (List.range 8).map fun i => UInt8.ofNat (n >>> (8 * i))

/-- A message filled up to whole blocks; `lengthBytes` writes its length in bits. -/
def fill (lengthBytes : Nat → List UInt8) (bs : List UInt8) : List UInt8 :=
  bs ++ 0x80 :: List.replicate ((119 - bs.length % 64) % 64) 0 ++ lengthBytes (8 * bs.length)

/-- The word of four bytes, the highest first. -/
def wordHighFirst (bs : List UInt8) : UInt32 := bs.foldl (fun n b => n * 256 + b.toUInt32) 0

/-- The word of four bytes, the lowest first. -/
def wordLowFirst (bs : List UInt8) : UInt32 := wordHighFirst bs.reverse

/-- The bytes of a word, the highest first. -/
def bytesHighFirst (w : UInt32) : List UInt8 :=
  [24, 16, 8, 0].map fun (i : UInt32) => (w >>> i).toUInt8

def hexText (bs : List UInt8) : String := String.ofList (bs.flatMap fun b => hexDigits 2 b.toNat)

end Shellbox.Digest
