/-!
# Blank characters

Blanks separate words and are dropped at the ends of a text. The set is Unicode white space
together with the four information separators U+001C to U+001F. The small lemmas say that trimming
leaves no blank at either end.
-/

namespace Shellbox.Text

/-- A blank: Unicode white space, or one of the separators U+001C to U+001F. -/
def isBlank (c : Char) : Bool :=
  let n := c.toNat
  (9 ≤ n && n ≤ 13) || (28 ≤ n && n ≤ 32) || n == 0x85 || n == 0xA0 || n == 0x1680 ||
    (0x2000 ≤ n && n ≤ 0x200A) || n == 0x2028 || n == 0x2029 || n == 0x202F || n == 0x205F ||
    n == 0x3000

/-- One of the information separators U+001C to U+001F. -/
def isSeparator (c : Char) : Bool := 28 ≤ c.toNat && c.toNat ≤ 31

/-! ## Trimming -/

def trimStart (cs : List Char) : List Char := cs.dropWhile isBlank

def trimEnd (cs : List Char) : List Char := (cs.reverse.dropWhile isBlank).reverse

/-- Drops the blanks at both ends. -/
def trimChars (cs : List Char) : List Char := trimEnd (trimStart cs)

/-- Drops the blanks at both ends of a text. -/
def trim (s : String) : String := String.ofList (trimChars s.toList)

/-- A text without a single character that is not blank. -/
def isAllBlank (s : String) : Bool := s.toList.all isBlank

@[simp] theorem trimStart_nil : trimStart [] = [] := rfl

@[simp] theorem trimEnd_nil : trimEnd [] = [] := rfl

theorem trimStart_cons (c : Char) (cs : List Char) :
    trimStart (c :: cs) = if isBlank c then trimStart cs else c :: cs := by
  simp only [trimStart, List.dropWhile_cons]

theorem trimEnd_concat (cs : List Char) (c : Char) :
    trimEnd (cs ++ [c]) = if isBlank c then trimEnd cs else cs ++ [c] := by
  simp only [trimEnd, List.reverse_append, List.reverse_cons, List.reverse_nil, List.nil_append,
    List.singleton_append, List.dropWhile_cons]
  split <;> simp

theorem trimEnd_cons (c : Char) (cs : List Char) :
    trimEnd (c :: cs) = if isBlank c ∧ trimEnd cs = [] then [] else c :: trimEnd cs := by
  simp only [trimEnd, List.reverse_cons, List.dropWhile_append, List.isEmpty_iff,
    List.reverse_eq_nil_iff]
  by_cases he : cs.reverse.dropWhile isBlank = []
  · by_cases hc : isBlank c <;> simp [he, hc]
  · simp [he]

/-- It does not matter at which end trimming begins. -/
theorem trimStart_trimEnd (cs : List Char) : trimStart (trimEnd cs) = trimChars cs := by
  induction cs with
  | nil => rfl
  | cons c cs ih =>
      by_cases hc : isBlank c
      · rw [trimChars, trimStart_cons, if_pos hc, ← trimChars, ← ih, trimEnd_cons]
        by_cases he : trimEnd cs = []
        · simp [hc, he]
        · rw [if_neg (by simp [he]), trimStart_cons, if_pos hc]
      · rw [trimChars, trimStart_cons, if_neg hc, trimEnd_cons, if_neg (by simp [hc]), trimStart_cons,
          if_neg hc]

theorem trimEnd_append_takeWhile (cs : List Char) :
    trimEnd cs ++ (cs.reverse.takeWhile isBlank).reverse = cs := by
  rw [trimEnd, ← List.reverse_append, List.takeWhile_append_dropWhile, List.reverse_reverse]

/-! ## Words -/

/-- The maximal blank-free runs of a list of characters. -/
def wordsChars (cs : List Char) : List (List Char) :=
  (cs.splitOnP isBlank).filter (!·.isEmpty)

/-- The maximal blank-free runs of a text. -/
def words (s : String) : List String := (wordsChars s.toList).map String.ofList

end Shellbox.Text
