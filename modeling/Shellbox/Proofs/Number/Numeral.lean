import Shellbox.Number.Numeral
import Shellbox.Proofs.Number.Leading

/-!
# Plain numerals

A numeral of the digits 0 to 9 is read as the number that it denotes, unless it is too long. In
ASCII nothing else is read.
-/

namespace Shellbox.Number

open Text

variable {c : Char} {cs digits : List Char} {n : Nat}

/-! ## Digits -/

theorem isDigit_of_plain (h : c.isDigit) : Text.isDigit c := by
  rw [Text.isDigit, isDecimal_of_isDigit h, Bool.true_or]

theorem plain_of_isDigit (hascii : c.toNat < 128) (h : Text.isDigit c) : c.isDigit := by
  have hall : ∀ k < 128, Text.isDigit (Char.ofNat k) → (Char.ofNat k).isDigit := by decide +kernel
  have hplain := hall c.toNat hascii
  rw [Char.ofNat_toNat] at hplain
  exact hplain h

theorem isDigits_ofList : isDigits (String.ofList cs) ↔ cs ≠ [] ∧ ∀ c ∈ cs, Text.isDigit c := by
  simp [isDigits]

/-! ## Numerals -/

/-- Decimal digits of any script, not too many of them. -/
structure IsDecimals (cs : List Char) : Prop where
  ne_nil : cs ≠ []
  isDecimal : ∀ c ∈ cs, isDecimal c
  length_le : cs.length ≤ maxDigits

instance (cs : List Char) : Decidable (IsDecimals cs) :=
  decidable_of_iff (cs ≠ [] ∧ cs.all isDecimal ∧ cs.length ≤ maxDigits)
    ⟨fun h => ⟨h.1, List.all_eq_true.mp h.2.1, h.2.2⟩,
      fun h => ⟨h.ne_nil, List.all_eq_true.mpr h.isDecimal, h.length_le⟩⟩

theorem IsDecimals.isDigits {text : String} (h : IsDecimals text.toList) : isDigits text := by
  have hdigit : ∀ c ∈ text.toList, Text.isDigit c := fun c hc => by
    rw [Text.isDigit, h.isDecimal c hc, Bool.true_or]
  rw [← String.ofList_toList (s := text)]
  exact isDigits_ofList.mpr ⟨h.ne_nil, hdigit⟩

/-- Just the decimal digits that are not too many are read, and read as what they denote. -/
theorem readNumeral_eq_ok_iff {text : String} :
    readNumeral text = .ok n ↔ IsDecimals text.toList ∧ ofDecimals text.toList = n := by
  unfold readNumeral
  constructor
  · intro h
    simp only at h
    split at h
    · cases h
    · rename_i hlength
      split at h
      · cases h
      · rename_i hclean
        obtain ⟨hne, hdecimal⟩ : text.toList ≠ [] ∧ ∀ c ∈ text.toList, isDecimal c := by
          simpa using hclean
        rw [List.takeWhile_eq_self_iff.mpr hdecimal] at hlength
        exact ⟨⟨hne, hdecimal, Nat.not_lt.mp hlength⟩, Except.ok.inj h⟩
  · rintro ⟨h, hvalue⟩
    have hfront : text.toList.takeWhile isDecimal = text.toList :=
      List.takeWhile_eq_self_iff.mpr h.isDecimal
    have hspoilt : (text.toList.any fun c => !isDecimal c) = false := by simpa using h.isDecimal
    have hempty : text.toList.isEmpty = false := List.isEmpty_eq_false_iff.mpr h.ne_nil
    simp only [hfront, hspoilt, hempty, hvalue, Bool.or_self, Bool.false_eq_true, ↓reduceIte,
      if_neg (Nat.not_lt.mpr h.length_le)]

/-- The digits 0 to 9, not too many of them, denote a number; zeros may stand in front. -/
structure IsNumeral (digits : List Char) (n : Nat) : Prop where
  ne_nil : digits ≠ []
  length_le : digits.length ≤ maxDigits
  isDigit : ∀ c ∈ digits, c.isDigit
  value : Nat.ofDigitChars 10 digits 0 = n

namespace IsNumeral

instance (digits : List Char) (n : Nat) : Decidable (IsNumeral digits n) :=
  decidable_of_iff (digits ≠ [] ∧ digits.length ≤ maxDigits ∧ digits.all Char.isDigit ∧
      Nat.ofDigitChars 10 digits 0 = n)
    ⟨fun h => ⟨h.1, h.2.1, List.all_eq_true.mp h.2.2.1, h.2.2.2⟩,
      fun h => ⟨h.ne_nil, h.length_le, List.all_eq_true.mpr h.isDigit, h.value⟩⟩

theorem isDigits (h : IsNumeral digits n) : isDigits (String.ofList digits) :=
  isDigits_ofList.mpr ⟨h.ne_nil, fun c hc => isDigit_of_plain (h.isDigit c hc)⟩

theorem not_mem (h : IsNumeral digits n) (hc : c.isDigit = false) : c ∉ digits := by
  intro hmem
  rw [h.isDigit c hmem] at hc
  cases hc

theorem not_blank (h : IsNumeral digits n) : ∀ c ∈ digits, isBlank c = false := fun c hc =>
  isBlank_of_isDecimal (isDecimal_of_isDigit (h.isDigit c hc))

theorem isDecimals (h : IsNumeral digits n) : IsDecimals digits :=
  ⟨h.ne_nil, fun c hc => isDecimal_of_isDigit (h.isDigit c hc), h.length_le⟩

theorem readNumeral_eq (h : IsNumeral digits n) : readNumeral (String.ofList digits) = .ok n := by
  have hvalue : ofDecimals digits = n := (digitsValue_of_isDigit h.isDigit).trans h.value
  rw [readNumeral_eq_ok_iff, String.toList_ofList]
  exact ⟨h.isDecimals, hvalue⟩

end IsNumeral

theorem isNumeral_of_readNumeral (hascii : ∀ c ∈ cs, c.toNat < 128)
    (h : readNumeral (String.ofList cs) = .ok n) : IsNumeral cs n := by
  rw [readNumeral_eq_ok_iff, String.toList_ofList] at h
  obtain ⟨hcs, hvalue⟩ := h
  have hplain : ∀ c ∈ cs, c.isDigit := fun c hc =>
    plain_of_isDigit (hascii c hc) (by rw [Text.isDigit, hcs.isDecimal c hc, Bool.true_or])
  exact ⟨hcs.ne_nil, hcs.length_le, hplain, (digitsValue_of_isDigit hplain).symm.trans hvalue⟩

end Shellbox.Number
