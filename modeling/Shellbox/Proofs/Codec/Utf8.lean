import Mathlib.Data.List.Basic
import Shellbox.Codec.Bytes
import Shellbox.Filesystem.Node

/-!
# Bytes read as UTF-8

The UTF-8 form of a text is told here by arithmetic on code points, and the bytes that are the form
of some text by the ranges that each byte of a character may lie in. Bytes of that kind are read as
their only text; all others are read byte by byte, however little is wrong with them.
-/

namespace Shellbox.Codec

open Filesystem (Info Node)

variable {t u : String} {bs : List UInt8} {l : List Nat} {n : Nat}

/-! ## The form of a character -/

/-- The bytes of a code point: six bits in each byte but the first. -/
def scalarBytes (n : Nat) : List Nat :=
  if n ≤ 0x7F then [n]
  else if n ≤ 0x7FF then [0xC0 + n / 64, 0x80 + n % 64]
  else if n ≤ 0xFFFF then [0xE0 + n / 4096, 0x80 + n / 64 % 64, 0x80 + n % 64]
  else [0xF0 + n / 262144, 0x80 + n / 4096 % 64, 0x80 + n / 64 % 64, 0x80 + n % 64]

/-- The bytes are the UTF-8 form of the text. -/
def Encodes (t : String) (bs : List UInt8) : Prop :=
  bs.map UInt8.toNat = t.toList.flatMap fun c => scalarBytes c.toNat

instance (t : String) (bs : List UInt8) : Decidable (Encodes t bs) :=
  inferInstanceAs (Decidable (_ = _))

theorem scalar_cases (c : Char) : c.toNat < 0xD800 ∨ 0xDFFF < c.toNat ∧ c.toNat < 0x110000 :=
  c.valid

theorem map_toNat_utf8EncodeChar (c : Char) :
    (String.utf8EncodeChar c).map UInt8.toNat = scalarBytes c.toNat := by
  have hc := scalar_cases c
  have hval : c.val.toNat = c.toNat := rfl
  simp only [String.utf8EncodeChar, scalarBytes, hval]
  split_ifs with h₁ h₂ h₃
  · simp only [List.map_cons, List.map_nil, UInt8.toNat_ofNat', List.cons.injEq, and_true]
    omega
  · simp only [List.map_cons, List.map_nil, UInt8.toNat_ofNat', List.cons.injEq, and_true]
    omega
  · simp only [List.map_cons, List.map_nil, UInt8.toNat_ofNat', List.cons.injEq, and_true]
    omega
  · simp only [List.map_cons, List.map_nil, UInt8.toNat_ofNat', List.cons.injEq, and_true]
    omega

theorem bytesOf_eq (t : String) : bytesOf t = t.toList.flatMap String.utf8EncodeChar := by
  rw [bytesOf, String.toUTF8_eq_toByteArray, ← String.utf8Encode_toList, List.utf8Encode,
    List.toList_data_toByteArray]

theorem encodes_iff : Encodes t bs ↔ bs = bytesOf t := by
  have hform : (bytesOf t).map UInt8.toNat = t.toList.flatMap fun c => scalarBytes c.toNat := by
    simp only [bytesOf_eq, List.map_flatMap, map_toNat_utf8EncodeChar]
  rw [Encodes, ← hform]
  exact (List.map_injective_iff.mpr fun _ _ => UInt8.toNat_inj.mp).eq_iff

/-! ## Which bytes are the form of a text -/

/-- A byte that goes on with a character. -/
def IsTail (b : Nat) : Prop := 0x80 ≤ b ∧ b ≤ 0xBF

/-- The bytes of one character. The second byte has a range of its own behind some first ones, which
leaves out forms longer than needed, the surrogates and what lies beyond the last code point. -/
inductive IsForm : List Nat → Prop
  | one {a : Nat} (ha : a ≤ 0x7F) : IsForm [a]
  | two {a b : Nat} (ha : 0xC2 ≤ a ∧ a ≤ 0xDF) (hb : IsTail b) : IsForm [a, b]
  | three {a b c : Nat} (ha : 0xE0 ≤ a ∧ a ≤ 0xEF) (hb : IsTail b) (hc : IsTail c)
      (hlong : a = 0xE0 → 0xA0 ≤ b) (hsurrogate : a = 0xED → b ≤ 0x9F) : IsForm [a, b, c]
  | four {a b c d : Nat} (ha : 0xF0 ≤ a ∧ a ≤ 0xF4) (hb : IsTail b) (hc : IsTail c)
      (hd : IsTail d) (hlong : a = 0xF0 → 0x90 ≤ b) (hlast : a = 0xF4 → b ≤ 0x8F) :
      IsForm [a, b, c, d]

/-- The bytes are forms of characters, one after another. -/
def WellFormed (bs : List UInt8) : Prop :=
  ∃ forms : List (List Nat), (∀ f ∈ forms, IsForm f) ∧ bs.map UInt8.toNat = forms.flatten

theorem isForm_scalarBytes (c : Char) : IsForm (scalarBytes c.toNat) := by
  have hc := scalar_cases c
  unfold scalarBytes
  split_ifs with h₁ h₂ h₃
  · exact .one (by omega)
  · exact .two (by omega) ⟨by omega, by omega⟩
  · exact .three (by omega) ⟨by omega, by omega⟩ ⟨by omega, by omega⟩ (by omega) (by omega)
  · exact .four (by omega) ⟨by omega, by omega⟩ ⟨by omega, by omega⟩ ⟨by omega, by omega⟩
      (by omega) (by omega)

/-- A code point that is no surrogate is the number of a character. -/
theorem toNat_char (h : n < 0xD800 ∨ 0xDFFF < n ∧ n < 0x110000) : (Char.ofNat n).toNat = n := by
  rw [Char.ofNat, dif_pos h]
  rfl

theorem IsForm.exists_scalarBytes (h : IsForm l) : ∃ c : Char, l = scalarBytes c.toNat := by
  cases h with
  | @one a ha =>
      refine ⟨Char.ofNat a, ?_⟩
      rw [toNat_char (by omega), scalarBytes, if_pos ha]
  | @two a b ha hb =>
      obtain ⟨hb₁, hb₂⟩ := hb
      refine ⟨Char.ofNat ((a - 0xC0) * 64 + (b - 0x80)), ?_⟩
      rw [toNat_char (by omega), scalarBytes, if_neg (by omega), if_pos (by omega)]
      simp only [List.cons.injEq, and_true]
      omega
  | @three a b d ha hb hd hlong hsurrogate =>
      obtain ⟨⟨hb₁, hb₂⟩, hd₁, hd₂⟩ := hb, hd
      refine ⟨Char.ofNat ((a - 0xE0) * 4096 + (b - 0x80) * 64 + (d - 0x80)), ?_⟩
      rw [toNat_char (by omega), scalarBytes, if_neg (by omega), if_neg (by omega),
        if_pos (by omega)]
      simp only [List.cons.injEq, and_true]
      omega
  | @four a b d e ha hb hd he hlong hlast =>
      obtain ⟨⟨hb₁, hb₂⟩, ⟨hd₁, hd₂⟩, he₁, he₂⟩ := hb, hd, he
      refine ⟨Char.ofNat
        ((a - 0xF0) * 262144 + (b - 0x80) * 4096 + (d - 0x80) * 64 + (e - 0x80)), ?_⟩
      rw [toNat_char (by omega), scalarBytes, if_neg (by omega), if_neg (by omega),
        if_neg (by omega)]
      simp only [List.cons.injEq, and_true]
      omega

theorem exists_chars {forms : List (List Nat)} (h : ∀ f ∈ forms, IsForm f) :
    ∃ cs : List Char, forms = cs.map fun c => scalarBytes c.toNat := by
  induction forms with
  | nil => exact ⟨[], rfl⟩
  | cons f forms ih =>
      obtain ⟨c, hc⟩ := (h f (by simp)).exists_scalarBytes
      obtain ⟨cs, hcs⟩ := ih fun g hg => h g (by simp [hg])
      exact ⟨c :: cs, by rw [hc, hcs, List.map_cons]⟩

theorem wellFormed_iff : WellFormed bs ↔ ∃ t, Encodes t bs := by
  constructor
  · rintro ⟨forms, hforms, hbs⟩
    obtain ⟨cs, rfl⟩ := exists_chars hforms
    refine ⟨String.ofList cs, ?_⟩
    rw [Encodes, hbs, String.toList_ofList, List.flatMap_def]
  · rintro ⟨t, ht⟩
    refine ⟨t.toList.map fun c => scalarBytes c.toNat, ?_, by rw [ht, List.flatMap_def]⟩
    intro f hf
    obtain ⟨c, -, rfl⟩ := List.mem_map.mp hf
    exact isForm_scalarBytes c

/-! ## Reading -/

theorem textOf_of_encodes (h : Encodes t bs) : textOf bs = t := by
  rw [encodes_iff.mp h, textOf_bytesOf]

theorem textOf_of_not_encodes (h : ¬ ∃ t, Encodes t bs) : textOf bs = latinText bs := by
  have hinvalid : ¬ ByteArray.IsValidUTF8 ⟨bs.toArray⟩ := by
    rintro ⟨cs, hcs⟩
    refine h ⟨String.ofList cs, encodes_iff.mpr ?_⟩
    have hlist := congrArg (fun b : ByteArray => b.data.toList) hcs
    rw [bytesOf_eq, String.toList_ofList]
    simpa [List.utf8Encode] using hlist
  rw [textOf, String.fromUTF8?, dif_neg hinvalid, Option.getD_none]

theorem toList_latinText (bs : List UInt8) :
    (latinText bs).toList.map Char.toNat = bs.map UInt8.toNat := by
  rw [latinText, String.toList_ofList, List.map_map]
  refine List.map_congr_left fun b _ => ?_
  have hb := b.toNat_lt
  rw [Function.comp_apply, toNat_char (.inl (by omega))]

/-- Bytes that are the form of a text are read as that text, which is the only one with the form; of
all others each byte becomes the character with its number. The bytes of the first kind are those
whose characters keep to the ranges of UTF-8. So a text comes back from its bytes, of which a file
that holds it has as many as its size tells. -/
theorem textOf_exact (bs : List UInt8) :
    (∀ t, Encodes t bs → textOf bs = t ∧ ∀ u, Encodes u bs → u = t) ∧
    ((¬ ∃ t, Encodes t bs) → (textOf bs).toList.map Char.toNat = bs.map UInt8.toNat) ∧
    ((∃ t, Encodes t bs) ↔ WellFormed bs) ∧
    (∀ t, Encodes t (bytesOf t) ∧ textOf (bytesOf t) = t) ∧
    ∀ t i, Encodes t bs → (Node.file i t).size = bs.length := by
  refine ⟨fun t ht => ⟨textOf_of_encodes ht, fun u hu => ?_⟩, fun h => ?_, wellFormed_iff.symm,
    fun t => ⟨encodes_iff.mpr rfl, textOf_bytesOf t⟩, fun t i ht => ?_⟩
  · rw [← textOf_of_encodes hu, textOf_of_encodes ht]
  · rw [textOf_of_not_encodes h, toList_latinText]
  · rw [encodes_iff.mp ht]
    rfl

/-- Three bytes that would be a surrogate are no character, and the good byte before them goes with
them. -/
theorem textOf_exact_surrogate :
    textOf [0x6E, 0xC3, 0xA9] = "né" ∧ (¬ ∃ t, Encodes t [0x6E, 0xED, 0xA0, 0x80]) ∧
      (textOf [0x6E, 0xED, 0xA0, 0x80]).toList.map Char.toNat = [0x6E, 0xED, 0xA0, 0x80] := by
  obtain ⟨hread, -⟩ := textOf_exact [0x6E, 0xC3, 0xA9]
  obtain ⟨-, hbytes, hwell, -⟩ := textOf_exact [0x6E, 0xED, 0xA0, 0x80]
  have hbroken : ¬ WellFormed [0x6E, 0xED, 0xA0, 0x80] := by
    rintro ⟨forms, hforms, hbs⟩
    -- The first form can only be the good byte, and no form begins with the next two.
    match forms with
    | [] => cases hbs
    | [f] =>
        cases hforms f (by simp) <;> simp at hbs
        omega
    | f :: g :: forms =>
        have hf := hforms f (by simp)
        have hg := hforms g (by simp)
        cases hf <;> cases hg <;> simp at hbs <;> omega
  have hnone : ¬ ∃ t, Encodes t [0x6E, 0xED, 0xA0, 0x80] := fun h => hbroken (hwell.mp h)
  exact ⟨(hread "né" (by decide)).1, hnone, hbytes hnone⟩

end Shellbox.Codec
