import Mathlib.Data.List.Basic
import Mathlib.Data.List.TakeWhile
import Shellbox.Proofs.Number.Exact

/-!
# The number at the front of a line

A line may begin with a number, behind blanks and a sign. A whole number of up to fifteen digits is
read exactly. A number is refused just if an information separator is among the blanks.
-/

namespace Shellbox.Number

open Text

variable {c : Char} {cs blanks sign digits rest : List Char} {line : String} {z : Int}

/-! ## Digits -/

theorem exists_zero_of_isDecimal (h : isDecimal c) :
    ∃ z ∈ decimalZeros, ∃ k < 10, Char.ofNat (z + k) = c := by
  rw [isDecimal, decimalValue?, Option.isSome_map, List.find?_isSome] at h
  obtain ⟨z, hmem, hrange⟩ := h
  simp only [Bool.and_eq_true, decide_eq_true_eq] at hrange
  refine ⟨z, hmem, c.toNat - z, by omega, ?_⟩
  rw [Nat.add_sub_cancel' hrange.1, Char.ofNat_toNat]

theorem isBlank_of_isDecimal (h : isDecimal c) : isBlank c = false := by
  have hall : ∀ z ∈ decimalZeros, ∀ k < 10, isBlank (Char.ofNat (z + k)) = false := by
    decide +kernel
  obtain ⟨z, hmem, k, hk, rfl⟩ := exists_zero_of_isDecimal h
  exact hall z hmem k hk

theorem decimalValue?_of_isDigit (h : c.isDigit) : decimalValue? c = some (c.toNat - 48) := by
  obtain ⟨hlow, hhigh⟩ : 48 ≤ c.toNat ∧ c.toNat ≤ 57 := Char.isDigit_iff_toNat.mp h
  have hfound : decimalZeros.find? (fun z => z ≤ c.toNat && c.toNat < z + 10) = some 48 := by
    refine List.find?_cons_of_pos ?_
    simp only [Bool.and_eq_true, decide_eq_true_eq]
    omega
  rw [decimalValue?, hfound, Option.map_some]

theorem isDecimal_of_isDigit (h : c.isDigit) : isDecimal c := by
  rw [isDecimal, decimalValue?_of_isDigit h, Option.isSome_some]

theorem digitsValue_of_isDigit (h : ∀ c ∈ digits, c.isDigit) :
    digitsValue digits = Nat.ofDigitChars 10 digits 0 := by
  refine List.foldl_ext _ _ 0 fun n c hc => ?_
  rw [decimalValue?_of_isDigit (h c hc), Option.getD_some, Nat.mul_comm]
  rfl

theorem ofDigitChars_lt (h : ∀ c ∈ digits, c.isDigit) (n : Nat) :
    Nat.ofDigitChars 10 digits n < (n + 1) * 10 ^ digits.length := by
  induction digits generalizing n with
  | nil => simp
  | cons c digits ih =>
      have hhigh : c.toNat ≤ '0'.toNat + 9 :=
        (Char.isDigit_iff_toNat.mp (h c List.mem_cons_self)).2
      have hvalue : c.toNat - '0'.toNat ≤ 9 := Nat.sub_le_iff_le_add'.mpr hhigh
      have hrest := ih (fun c hc => h c (List.mem_cons_of_mem _ hc))
        (10 * n + (c.toNat - '0'.toNat))
      rw [Nat.ofDigitChars_cons, List.length_cons, Nat.pow_succ', ← Nat.mul_assoc]
      exact Nat.lt_of_lt_of_le hrest (Nat.mul_le_mul_right _ (by omega))

/-! ## Where a number begins -/

/-- A number begins with a decimal digit, or with a point and a decimal digit. -/
inductive BeginsNumber : List Char → Prop
  | digit {c : Char} {cs : List Char} (h : isDecimal c) : BeginsNumber (c :: cs)
  | point {c : Char} {cs : List Char} (h : isDecimal c) : BeginsNumber ('.' :: c :: cs)

theorem beginsNumber_cons_iff :
    BeginsNumber (c :: cs) ↔
      isDecimal c ∨ c = '.' ∧ ∃ c' rest, cs = c' :: rest ∧ isDecimal c' := by
  constructor
  · intro h
    cases h with
    | digit h => exact .inl h
    | point h => exact .inr ⟨rfl, _, _, rfl, h⟩
  · rintro (h | ⟨rfl, c', rest, rfl, h⟩)
    · exact .digit h
    · exact .point h

theorem takeMantissa?_isSome_iff : (takeMantissa? cs).isSome ↔ BeginsNumber cs := by
  cases cs with
  | nil => exact ⟨fun h => by simp [takeMantissa?, takeDigits] at h, fun h => by cases h⟩
  | cons c cs =>
      rw [beginsNumber_cons_iff]
      by_cases hc : isDecimal c
      · simp only [takeMantissa?, takeDigits, List.takeWhile_cons_of_pos hc, hc, true_or, iff_true]
        split <;> simp
      · simp only [takeMantissa?, takeDigits, List.takeWhile_cons_of_neg hc,
          List.dropWhile_cons_of_neg hc, hc]
        by_cases hpoint : c = '.'
        · subst hpoint
          cases cs with
          | nil => simp
          | cons c' rest => by_cases hc' : isDecimal c' <;> simp [hc']
        · simp [hpoint]

/-! ## The sign -/

/-- What may stand before a number. -/
def signs : List (List Char) := [[], ['+'], ['-']]

theorem takeSign_of_begins (h : BeginsNumber rest) : takeSign rest = (false, rest) := by
  cases h with
  | @digit c cs h =>
      have hminus : c ≠ '-' := fun hc => absurd (hc ▸ h) (by decide)
      have hplus : c ≠ '+' := fun hc => absurd (hc ▸ h) (by decide)
      rw [takeSign] <;> simp [hminus, hplus]
  | point h => rfl

theorem takeSign_append (hsign : sign ∈ signs) (hrest : BeginsNumber rest) :
    takeSign (sign ++ rest) = (decide (sign = ['-']), rest) := by
  simp only [signs, List.mem_cons, List.not_mem_nil, or_false] at hsign
  rcases hsign with rfl | rfl | rfl
  · exact takeSign_of_begins hrest
  · rfl
  · rfl

theorem exists_takeSign (cs : List Char) : ∃ sign ∈ signs, cs = sign ++ (takeSign cs).2 := by
  unfold takeSign
  split
  · exact ⟨['-'], by decide, rfl⟩
  · exact ⟨['+'], by decide, rfl⟩
  · exact ⟨[], by decide, rfl⟩

theorem takeNumber?_isSome_iff :
    (takeNumber? cs).isSome ↔ ∃ sign ∈ signs, ∃ rest, cs = sign ++ rest ∧ BeginsNumber rest := by
  simp only [takeNumber?, Option.isSome_map, takeMantissa?_isSome_iff]
  constructor
  · intro h
    obtain ⟨sign, hsign, hcs⟩ := exists_takeSign cs
    exact ⟨sign, hsign, _, hcs, h⟩
  · rintro ⟨sign, hsign, rest, rfl, hrest⟩
    rwa [takeSign_append hsign hrest]

/-! ## Behind the blanks -/

/-- The characters are blanks, a sign and a text that begins with a number. -/
structure Numbered (cs blanks sign rest : List Char) : Prop where
  eq : cs = blanks ++ (sign ++ rest)
  blank : ∀ c ∈ blanks, isBlank c
  sign : sign ∈ signs
  begins : BeginsNumber rest

namespace Numbered

/-- Neither a sign nor a number begins with a blank. -/
theorem head_not_blank (h : Numbered cs blanks sign rest) :
    ∃ c r, sign ++ rest = c :: r ∧ isBlank c = false := by
  have hsign := h.sign
  simp only [signs, List.mem_cons, List.not_mem_nil, or_false] at hsign
  rcases hsign with rfl | rfl | rfl
  · cases h.begins with
    | digit hc => exact ⟨_, _, rfl, isBlank_of_isDecimal hc⟩
    | point hc => exact ⟨'.', _, rfl, by decide⟩
  · exact ⟨'+', rest, rfl, by decide⟩
  · exact ⟨'-', rest, rfl, by decide⟩

theorem takeWhile_eq (h : Numbered cs blanks sign rest) : cs.takeWhile isBlank = blanks := by
  obtain ⟨c, r, hrest, hc⟩ := h.head_not_blank
  rw [h.eq, List.takeWhile_append_of_pos h.blank, hrest, List.takeWhile_cons_of_neg (by simp [hc]),
    List.append_nil]

theorem trimStart_eq (h : Numbered cs blanks sign rest) : trimStart cs = sign ++ rest := by
  obtain ⟨c, r, hrest, hc⟩ := h.head_not_blank
  rw [h.eq, trimStart, List.dropWhile_append_of_pos h.blank, hrest,
    List.dropWhile_cons_of_neg (by simp [hc])]

end Numbered

theorem takeNumber?_trimStart_isSome_iff :
    (takeNumber? (trimStart cs)).isSome ↔ ∃ blanks sign rest, Numbered cs blanks sign rest := by
  rw [takeNumber?_isSome_iff]
  constructor
  · rintro ⟨sign, hsign, rest, htrim, hrest⟩
    refine ⟨cs.takeWhile isBlank, sign, rest, ?_, fun c => List.mem_takeWhile_imp, hsign, hrest⟩
    rw [← htrim, trimStart, List.takeWhile_append_dropWhile]
  · rintro ⟨blanks, sign, rest, h⟩
    exact ⟨sign, h.sign, rest, h.trimStart_eq, h.begins⟩

/-! ## Whole numbers -/

/-- Up to fifteen digits that the rest does not continue. -/
structure IsWhole (digits rest : List Char) : Prop where
  ne_nil : digits ≠ []
  length_le : digits.length ≤ 15
  isDigit : ∀ c ∈ digits, c.isDigit
  ends : ∀ c ∈ rest.head?, isDecimal c = false ∧ c ≠ '.' ∧ c ≠ 'e' ∧ c ≠ 'E'

/-- The value of a sign and digits. -/
def signedValue (sign digits : List Char) : Int :=
  if sign = ['-'] then -(Nat.ofDigitChars 10 digits 0 : Int) else Nat.ofDigitChars 10 digits 0

namespace IsWhole

theorem begins (h : IsWhole digits rest) : BeginsNumber (digits ++ rest) := by
  cases digits with
  | nil => exact absurd rfl h.ne_nil
  | cons c digits => exact .digit (isDecimal_of_isDigit (h.isDigit c List.mem_cons_self))

theorem takeDigits_eq (h : IsWhole digits rest) : takeDigits (digits ++ rest) = (digits, rest) := by
  have hdecimal : ∀ c ∈ digits, isDecimal c := fun c hc => isDecimal_of_isDigit (h.isDigit c hc)
  rw [takeDigits, List.takeWhile_append_of_pos hdecimal, List.dropWhile_append_of_pos hdecimal]
  cases rest with
  | nil => simp
  | cons c rest =>
      have hc : ¬ isDecimal c := by simp [(h.ends c rfl).1]
      rw [List.takeWhile_cons_of_neg hc, List.dropWhile_cons_of_neg hc, List.append_nil]

theorem takeMantissa?_eq (h : IsWhole digits rest) :
    takeMantissa? (digits ++ rest) = some (digits, [], rest) := by
  have hne : digits.isEmpty = false := by simpa using h.ne_nil
  simp only [takeMantissa?, h.takeDigits_eq, hne, Bool.false_eq_true, ↓reduceIte]
  split
  · exact absurd rfl (h.ends '.' rfl).2.1
  · rfl

theorem takeExponent_eq (h : IsWhole digits rest) : takeExponent rest = (0, rest) := by
  cases rest with
  | nil => rfl
  | cons c rest =>
      obtain ⟨-, -, he, hE⟩ := h.ends c rfl
      simp [takeExponent, he, hE]

theorem takeNumber?_eq (h : IsWhole digits rest) (hsign : sign ∈ signs) :
    takeNumber? (sign ++ (digits ++ rest)) = some (.ofInteger (signedValue sign digits), rest) := by
  have hlt : Nat.ofDigitChars 10 digits 0 < 2 ^ 53 :=
    calc Nat.ofDigitChars 10 digits 0
        < (0 + 1) * 10 ^ digits.length := ofDigitChars_lt h.isDigit 0
      _ ≤ (0 + 1) * 10 ^ 15 := Nat.mul_le_mul_left _ (Nat.pow_le_pow_right (by decide) h.length_le)
      _ < 2 ^ 53 := by decide
  simp only [takeNumber?, takeSign_append hsign h.begins, h.takeMantissa?_eq, h.takeExponent_eq,
    Option.map_some, List.append_nil, digitsValue_of_isDigit h.isDigit, List.length_nil,
    Int.natCast_zero, Int.sub_zero, Binary64.ofDecimal_of_lt hlt, decide_eq_true_eq, signedValue]

end IsWhole

/-! ## What a line leads with -/

/-- The whole number in front of a line; where there is no number, it is zero. -/
inductive LeadsWith (line : String) : Int → Prop
  | absent (h : ¬ ∃ blanks sign rest, Numbered line.toList blanks sign rest) : LeadsWith line 0
  | whole {blanks sign digits rest : List Char}
      (h : Numbered line.toList blanks sign (digits ++ rest))
      (hwhole : IsWhole digits rest) : LeadsWith line (signedValue sign digits)

theorem LeadsWith.of_whole (blanks sign digits rest : List Char)
    (heq : line.toList = blanks ++ (sign ++ (digits ++ rest))) (hblank : ∀ c ∈ blanks, isBlank c)
    (hsign : sign ∈ signs) (hwhole : IsWhole digits rest) :
    LeadsWith line (signedValue sign digits) :=
  .whole ⟨heq, hblank, hsign, hwhole.begins⟩ hwhole

/-- A number stands in front, but one of the blanks before it is an information separator. -/
def IsSpoilt (line : String) : Prop :=
  ∃ blanks sign rest, Numbered line.toList blanks sign rest ∧ ∃ c ∈ blanks, isSeparator c

theorem IsSpoilt.exists_mem (h : IsSpoilt line) : ∃ c ∈ line.toList, isSeparator c := by
  obtain ⟨blanks, sign, rest, h, c, hc, hsep⟩ := h
  exact ⟨c, h.eq ▸ List.mem_append_left _ hc, hsep⟩

theorem leadingNumber_of_leadsWith (h : LeadsWith line z) (hspoilt : ¬ IsSpoilt line) :
    leadingNumber line = .ok (.ofInteger z) := by
  cases h with
  | absent h =>
      rw [← takeNumber?_trimStart_isSome_iff, Option.not_isSome_iff_eq_none] at h
      simp only [leadingNumber, h, Binary64.zero_eq_ofInteger]
  | @whole blanks sign digits rest h hwhole =>
      have hclean : (blanks.any isSeparator) = false := by
        rw [List.any_eq_false]
        exact fun c hc hsep => hspoilt ⟨blanks, sign, _, h, c, hc, hsep⟩
      simp only [leadingNumber, h.trimStart_eq, hwhole.takeNumber?_eq h.sign, h.takeWhile_eq,
        hclean, Bool.false_eq_true, ↓reduceIte]

/-- A line is refused just if it is spoilt. -/
theorem exists_leadingNumber_eq_error_iff :
    (∃ text, leadingNumber line = .error text) ↔ IsSpoilt line := by
  constructor
  · rintro ⟨text, herror⟩
    cases hfound : takeNumber? (trimStart line.toList) with
    | none => simp [leadingNumber, hfound] at herror
    | some found =>
        have hsome : (takeNumber? (trimStart line.toList)).isSome := by rw [hfound]; rfl
        obtain ⟨blanks, sign, rest, h⟩ := takeNumber?_trimStart_isSome_iff.mp hsome
        simp only [leadingNumber, hfound, h.takeWhile_eq] at herror
        split at herror
        · rename_i hsep
          exact ⟨blanks, sign, rest, h, List.any_eq_true.mp hsep⟩
        · cases herror
  · rintro ⟨blanks, sign, rest, h, hsep⟩
    have hsome := takeNumber?_trimStart_isSome_iff.mpr ⟨blanks, sign, rest, h⟩
    obtain ⟨found, hfound⟩ := Option.isSome_iff_exists.mp hsome
    have hany : blanks.any isSeparator = true := List.any_eq_true.mpr hsep
    simp only [leadingNumber, hfound, h.takeWhile_eq, hany, ↓reduceIte]
    exact ⟨_, rfl⟩

end Shellbox.Number
