import Shellbox.Text.Quoted

/-!
# Faults of formats

Why a format cannot be filled in, and how that is said.
-/

namespace Shellbox.Format

open Text

/-- The marks that group digits. -/
inductive Grouping where
  | comma
  | underscore
deriving DecidableEq, Repr

def Grouping.mark : Grouping → Char
  | .comma => ','
  | .underscore => '_'

/-- Why a format cannot be filled in. -/
inductive Fault where
  /-- A brace opens at the very end. -/
  | loneOpening
  | loneClosing
  | nestedOpening
  /-- The name of a field does not end. -/
  | unterminated
  | missingConversion
  | longConversion
  | unknownConversion (c : Char)
  /-- The layout of a field does not end. -/
  | openLayout
  | tooNested
  | unknownName (name : String)
  | positional (index : Nat)
  | hugeNumber
  | emptyAttribute
  | unknownAttribute (name : String)
  | openBracket
  | strayBehindBracket
  | badIndex
  | indexOutOfRange
  | mixedGroupings
  | missingPrecision
  | malformedLayout (layout : String)
  | grouped (g : Grouping) (kind : Char)
  | unknownKind (kind : Char)
  | blankSign
  | sign
  | zeroSign
  | alternate
  | innerPadding
  /-- The result does not fit into memory. -/
  | tooWide
deriving DecidableEq, Repr

/-- A character in a message: as it is when it is in ASCII and no blank or control character,
otherwise by its number. -/
def shownChar (limit : Nat) (c : Char) : String :=
  if 32 < c.toNat && c.toNat < limit then String.ofList [c] else "\\x" ++ hex 1 c.toNat

def Fault.message : Fault → String
  | .loneOpening => "Single '\x7b' encountered in format string"
  | .loneClosing => "Single '\x7d' encountered in format string"
  | .nestedOpening => "unexpected '\x7b' in field name"
  | .unterminated => "expected '\x7d' before end of string"
  | .missingConversion => "end of string while looking for conversion specifier"
  | .longConversion => "expected ':' after conversion specifier"
  | .unknownConversion c => "Unknown conversion specifier " ++ shownChar 127 c
  | .openLayout => "unmatched '\x7b' in format spec"
  | .tooNested => "Max string recursion exceeded"
  | .unknownName n => quoted n
  | .positional i => "Replacement index " ++ toString i ++ " out of range for positional args tuple"
  | .hugeNumber => "Too many decimal digits in format string"
  | .emptyAttribute => "Empty attribute in format string"
  | .unknownAttribute n => "'str' object has no attribute '" ++ n ++ "'"
  | .openBracket => "Missing ']' in format string"
  | .strayBehindBracket => "Only '.' or '[' may follow ']' in format field specifier"
  | .badIndex => "string indices must be integers, not 'str'"
  | .indexOutOfRange => "string index out of range"
  | .mixedGroupings => "Cannot specify both ',' and '_'."
  | .missingPrecision => "Format specifier missing precision"
  | .malformedLayout l => "Invalid format specifier '" ++ l ++ "' for object of type 'str'"
  | .grouped g k =>
    "Cannot specify '" ++ String.ofList [g.mark] ++ "' with '" ++ shownChar 128 k ++ "'."
  | .unknownKind k =>
    "Unknown format code '" ++ shownChar 128 k ++ "' for object of type 'str'"
  | .blankSign => "Space not allowed in string format specifier"
  | .sign => "Sign not allowed in string format specifier"
  | .zeroSign => "Negative zero coercion (z) not allowed in string format specifier"
  | .alternate => "Alternate form (#) not allowed in string format specifier"
  | .innerPadding => "'=' alignment not allowed in string format specifier"
  | .tooWide => ""

end Shellbox.Format
