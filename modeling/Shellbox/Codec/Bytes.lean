/-!
# Texts as bytes

A text is written in UTF-8. Bytes are read as UTF-8 if they are the form of some text, and otherwise
each byte is the number of a character. No text holds a lone surrogate; those that would are left out
here and everywhere.
-/

namespace Shellbox.Codec

/-- The bytes of a text in UTF-8. -/
def bytesOf (s : String) : List UInt8 := s.toUTF8.data.toList

/-- The text in which each byte is the number of a character. -/
def latinText (bs : List UInt8) : String := String.ofList (bs.map fun b => Char.ofNat b.toNat)

def textOf (bs : List UInt8) : String := (String.fromUTF8? ⟨bs.toArray⟩).getD (latinText bs)

/-- A text comes back from its bytes. -/
theorem textOf_bytesOf (s : String) : textOf (bytesOf s) = s := by
  have hbytes : (⟨(bytesOf s).toArray⟩ : ByteArray) = s.toUTF8 := by simp [bytesOf]
  have hread : String.fromUTF8? s.toUTF8 = some s := by
    rw [String.toUTF8_eq_toByteArray, String.fromUTF8?, dif_pos s.isValidUTF8]
    rfl
  rw [textOf, hbytes, hread, Option.getD_some]

end Shellbox.Codec
