import Mathlib.Algebra.Order.Ring.Int
import Mathlib.Data.Nat.Digits.Defs
import Shellbox.Number.Binary64

/-!
# Whole numbers that are kept exactly

Order keys are compared by a total preorder. A whole number below `2 ^ 53` is not rounded, so such
numbers compare as their keys do.
-/

namespace Shellbox.Number.Binary64

variable {a b c : Binary64} {n : Nat}

/-! ## The order -/

theorem le_trans (hab : a.le b) (hbc : b.le c) : a.le c := by
  cases a <;> cases b <;> cases c <;> simp_all [le]
  omega

theorem le_total (a b : Binary64) : a.le b || b.le a := by
  cases a <;> cases b <;> simp [le]
  omega

/-! ## Whole numbers -/

/-- The power of two that tells the number of units in one. -/
def unitExponent : Nat := 1074

/-- The key of a whole number. -/
def ofInteger (z : Int) : Binary64 := finite (z * (2 ^ unitExponent : Nat))

theorem zero_eq_ofInteger : zero = ofInteger 0 := by
  rw [zero, ofInteger, Int.zero_mul]

theorem le_ofInteger (y z : Int) : (ofInteger y).le (ofInteger z) = decide (y ≤ z) := by
  have hpos : (0 : Int) < (2 ^ unitExponent : Nat) :=
    Int.natCast_pos.mpr (Nat.two_pow_pos unitExponent)
  simp only [ofInteger, le, Int.mul_le_mul_iff_of_pos_right hpos]

theorem roundDiv_mul (q : Nat) {den : Nat} (h : 0 < den) : roundDiv (q * den) den = q := by
  have hne : (0 == den) = false := by simpa using h.ne
  simp [roundDiv, Nat.mul_div_cancel _ h, hne]

/-- Units of which only zeros are cut off are not rounded. -/
theorem roundDiv_shift {k shift : Nat} (h : shift ≤ k) (n : Nat) :
    roundDiv (n * 2 ^ k) (1 <<< shift) <<< shift = n * 2 ^ k := by
  have hsplit : n * 2 ^ k = n * 2 ^ (k - shift) * 2 ^ shift := by
    rw [Nat.mul_assoc, ← Nat.pow_add, Nat.sub_add_cancel h]
  rw [Nat.one_shiftLeft, Nat.shiftLeft_eq, hsplit, roundDiv_mul _ (Nat.two_pow_pos shift)]

theorem unitsOf?_of_lt (h : n < 2 ^ 53) : unitsOf? n 1 = some (n * 2 ^ unitExponent) := by
  have hunits : n <<< 1074 = n * 2 ^ unitExponent := Nat.shiftLeft_eq n unitExponent
  have hle : 53 + unitExponent ≤ overflowExponent := by decide
  generalize unitExponent = k at hunits hle ⊢
  have hlt : n * 2 ^ k < 2 ^ (53 + k) := by
    rw [Nat.pow_add]
    exact Nat.mul_lt_mul_of_pos_right h (Nat.two_pow_pos k)
  have hfits : ¬ n * 2 ^ k ≥ 1 <<< overflowExponent := by
    rw [Nat.one_shiftLeft, Nat.not_le]
    exact Nat.lt_of_lt_of_le hlt (Nat.pow_le_pow_right (by decide) hle)
  -- A number of at most 53 digits has no more digits cut off than there are zeros behind it.
  have hshift : (if n * 2 ^ k = 0 then 0 else (n * 2 ^ k).log2 + 1 - 53) ≤ k := by
    split
    · exact Nat.zero_le _
    · rename_i hne
      have hlog := (Nat.log2_lt hne).mpr hlt
      omega
  simp only [unitsOf?, hunits, Nat.div_one, roundDiv_shift hshift, if_neg hfits]

theorem ofDecimal_of_lt (h : n < 2 ^ 53) (negative : Bool) :
    ofDecimal negative n 0 = ofInteger (if negative then -(n : Int) else n) := by
  have hlength : (toString n).length ≤ 16 := by
    have hpow : n < 10 ^ 16 := Nat.lt_of_lt_of_le h (by decide)
    exact (Nat.length_repr_le_iff (by decide)).mpr hpow
  have hunits : decimalUnits? n 0 = some (n * 2 ^ unitExponent) := by
    unfold decimalUnits?
    by_cases hzero : n = 0
    · simp [hzero]
    · have hsmall : ¬ ((toString n).length + (0 : Int) < -400) := by omega
      have hlarge : ¬ ((toString n).length + (0 : Int) > 400) := by omega
      have hpow : n * Nat.pow 10 (0 : Int).toNat = n := Nat.mul_one n
      simp only [hzero, hsmall, hlarge, decide_false, Bool.or_self, Bool.false_eq_true, ↓reduceIte,
        ge_iff_le, Int.le_refl, hpow, unitsOf?_of_lt h]
  cases negative with
  | false =>
      simp only [ofDecimal, hunits]
      exact congrArg finite (Int.natCast_mul n _)
  | true =>
      simp only [ofDecimal, hunits]
      refine congrArg finite ?_
      rw [Int.natCast_mul, if_pos trivial, Int.neg_mul]

end Shellbox.Number.Binary64
