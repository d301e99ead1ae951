import Shellbox.Text.Blank
import Shellbox.Text.Case
import Shellbox.Text.Digit
import Shellbox.Text.WordChar

/-!
# Tests for one character

A pattern tests characters one by one: against a code point, against a set, or hardly at all.
Characters are given by code point, because a pattern may name one that no text contains.

Letter case may count or not. In a set in which it does not, a code point up to U+FFFF stands for
all that count as the same letter, but a greater one is compared as it is written with the lower
case of the character; so a set that names a capital letter up there does not hold it. A range that
goes on beyond U+FFFF holds in addition what has its lower case in the range, or the upper case of
that.
-/

namespace Shellbox.Pattern

open Text

/-- How letter case counts in a comparison. -/
inductive Fold where
  /-- Every character stands for itself. -/
  | exact
  /-- Upper and lower case of the letters A to Z are the same. -/
  | ascii
  /-- Upper and lower case of all letters are the same. -/
  | unicode
deriving DecidableEq, Repr

/-- The named classes of characters. -/
inductive ClassName where
  | digit
  | space
  | word
deriving DecidableEq, Repr

/-- A named class, its complement, or its part below U+0080. -/
structure CharClass where
  name : ClassName
  negated : Bool
  asciiOnly : Bool
deriving DecidableEq, Repr

/-- One item of a set of characters. -/
inductive SetItem where
  | code (n : Nat)
  | range (first last : Nat)
  | named (c : CharClass)
deriving DecidableEq, Repr

/-- A test that one character passes or fails. -/
inductive CharTest where
  /-- Any character, or any but a line break. -/
  | any (acrossLines : Bool)
  /-- One code point, or any but this. -/
  | code (fold : Fold) (negated : Bool) (n : Nat)
  /-- A character that some item holds, or that none holds. -/
  | among (fold : Fold) (negated : Bool) (items : List SetItem)
deriving DecidableEq, Repr

/-! ## Letter case -/

def asciiLower (n : Nat) : Nat := if 65 ≤ n && n ≤ 90 then n + 32 else n

/-- A letter from A to Z of either case. -/
def isAsciiLetterCode (n : Nat) : Bool := (65 ≤ n && n ≤ 90) || (97 ≤ n && n ≤ 122)

/-- The code point by which letters are compared. -/
def Fold.key : Fold → Nat → Nat
  | .exact, n => n
  | .ascii, n => asciiLower n
  | .unicode, n => lowerCode n

/-- The code points that count as the same character. -/
def Fold.variants : Fold → Nat → List Nat
  | .exact, n => [n]
  | .ascii, n => if isAsciiLetterCode n then [asciiLower n, asciiLower n - 32] else [n]
  | .unicode, n => caseVariants n

/-- The code points count as the same character. -/
def Fold.same : Fold → Nat → Nat → Bool
  | .exact, a, b => a == b
  | .ascii, a, b => asciiLower a == asciiLower b
  | .unicode, a, b => sameCode a b

/-- The code point has an upper and a lower case. -/
def Fold.isCased : Fold → Nat → Bool
  | .exact, _ => false
  | .ascii, n => isAsciiLetterCode n
  | .unicode, n => Text.isCased n

/-! ## Classes and sets -/

def ClassName.holds (asciiOnly : Bool) (c : Char) : ClassName → Bool
  | .digit => isDecimal c && (!asciiOnly || c.toNat < 128)
  | .space =>
    if asciiOnly then c.toNat == 32 || (9 ≤ c.toNat && c.toNat ≤ 13) else isBlank c
  | .word => isWordChar c && (!asciiOnly || c.toNat < 128)

def CharClass.holds (k : CharClass) (c : Char) : Bool := k.name.holds k.asciiOnly c != k.negated

/-- The greatest code point that stands for its whole letter in a set. -/
def lastOfPlane : Nat := 0xFFFF

/-- Letter case makes a difference to the item. -/
def SetItem.isCased (fold : Fold) : SetItem → Bool
  | .code n => n > lastOfPlane || fold.isCased n
  | .range a b => b > lastOfPlane || (List.range' a (b + 1 - a)).any fold.isCased
  | .named _ => false

/-- The range holds a code point or one that counts as the same. -/
def rangeHolds (fold : Fold) (a b n : Nat) : Bool :=
  (fold.variants n).any fun v => a ≤ v && v ≤ b

/-- The item holds a character when letter case counts as told; named classes look at its key. -/
def SetItem.holds (fold : Fold) (c : Char) : SetItem → Bool
  | .code n =>
    if n ≤ lastOfPlane then fold.same n c.toNat else n == fold.key c.toNat
  | .range a b =>
    if fold = .exact then a ≤ c.toNat && c.toNat ≤ b
    else if b ≤ lastOfPlane then rangeHolds fold a b c.toNat
    else
      let key := fold.key c.toNat
      rangeHolds fold a lastOfPlane c.toNat || (a ≤ key && key ≤ b) ||
        (a ≤ upperCode key && upperCode key ≤ b)
  | .named k => k.holds (Char.ofNat (fold.key c.toNat))

/-! ## Tests -/

def CharTest.passes : CharTest → Char → Bool
  | .any acrossLines, c => acrossLines || c != '\n'
  | .code fold negated n, c => fold.same n c.toNat != negated
  | .among fold negated items, c => items.any (·.holds fold c) != negated

/-- The test for a code point; a code point without case is compared exactly. -/
def CharTest.ofCode (fold : Fold) (negated : Bool) (n : Nat) : CharTest :=
  .code (if fold.isCased n then fold else .exact) negated n

/-- The test for a set; a set of code points without case is compared exactly. -/
def CharTest.ofItems (fold : Fold) (negated : Bool) (items : List SetItem) : CharTest :=
  .among (if items.any (·.isCased fold) then fold else .exact) negated items

/-- The test compares characters exactly, with a code point or with a set. -/
def CharTest.isExact : CharTest → Bool
  | .code .exact false _ => true
  | .among .exact _ _ => true
  | _ => false

/-- The code point that the test asks for, if it is a single one. -/
def CharTest.exactCode? : CharTest → Option Nat
  | .code .exact false n => some n
  | _ => none

/-- The items of the test, if some set without a sign has them all. -/
def CharTest.items? : CharTest → Option (List SetItem)
  | .code _ false n => some [.code n]
  | .among _ false items => some items
  | _ => none

end Shellbox.Pattern
