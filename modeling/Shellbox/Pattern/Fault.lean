import Shellbox.Number.Numeral
import Shellbox.Pattern.Basic
import Shellbox.Text.Quoted

/-!
# Faults in patterns

Why a text is no pattern. Most faults have a place in the text, which the message gives by its
index, and by line and column too if the text has several lines.
-/

namespace Shellbox.Pattern

open Shellbox.Text Shellbox.Number

/-- What is wrong at a place in a pattern. -/
inductive Flaw where
  | unterminatedSet
  | unterminatedGroup
  | unbalancedParenthesis
  | nothingToRepeat
  | repeatedRepeat
  | leastAboveMost
  | badRange (first last : String)
  | badEscape (text : String)
  | escapeAtEnd
  | incompleteEscape (text : String)
  | octalTooLarge (text : String)
  | missingBrace
  | unknownCharacterName (name : String)
  | invalidGroup (n : Nat)
  | openGroup
  | lookbehindGroup
  | badGroupNumber
  | unknownExtension (text : String)
  | unexpectedEnd
  | missingName (what : String)
  | unterminatedName (closing : Char)
  | badGroupName (name : String)
  | unknownGroupName (name : String)
  | nameTaken (name : String) (new old : Nat)
  | unterminatedComment
  | thirdBranch
  | lateGlobalFlags
  | unknownFlag
  | missingFlag
  | missingFlagsEnd
  | missingColon
  | localeFlag
  | clashingTypeFlags
  | typeFlagOff
  | globalFlagOn
  | globalFlagOff
  | flagOnAndOff
deriving DecidableEq, Repr

/-- Why a text is no pattern. -/
inductive Fault where
  /-- A flaw at an index of the text. -/
  | at (flaw : Flaw) (index : Nat)
  /-- What was read cannot be used. -/
  | defect (d : Defect)
  /-- A bound of a repetition is too large to be kept. -/
  | repetitionTooLarge
  /-- A code point does not fit into 32 bits with a sign. -/
  | codeTooLarge
  /-- A bound of a repetition has too many digits. -/
  | numeral (f : NumeralFault)
  /-- Characters were declared both below U+0080 and of all scripts. -/
  | clashingAlphabets
deriving DecidableEq, Repr

def Flaw.text : Flaw → String
  | .unterminatedSet => "unterminated character set"
  | .unterminatedGroup => "missing ), unterminated subpattern"
  | .unbalancedParenthesis => "unbalanced parenthesis"
  | .nothingToRepeat => "nothing to repeat"
  | .repeatedRepeat => "multiple repeat"
  | .leastAboveMost => "min repeat greater than max repeat"
  | .badRange a b => "bad character range " ++ a ++ "-" ++ b
  | .badEscape e => "bad escape " ++ e
  | .escapeAtEnd => "bad escape (end of pattern)"
  | .incompleteEscape e => "incomplete escape " ++ e
  | .octalTooLarge e => "octal escape value " ++ e ++ " outside of range 0-0o377"
  | .missingBrace => "missing \x7b"
  | .unknownCharacterName n => "undefined character name " ++ quoted n
  | .invalidGroup n => "invalid group reference " ++ toString n
  | .openGroup => "cannot refer to an open group"
  | .lookbehindGroup => "cannot refer to group defined in the same lookbehind subpattern"
  | .badGroupNumber => "bad group number"
  | .unknownExtension e => "unknown extension " ++ e
  | .unexpectedEnd => "unexpected end of pattern"
  | .missingName what => "missing " ++ what
  | .unterminatedName c => "missing " ++ c.toString ++ ", unterminated name"
  | .badGroupName n => "bad character in group name " ++ quoted n
  | .unknownGroupName n => "unknown group name " ++ quoted n
  | .nameTaken n new old => "redefinition of group name " ++ quoted n ++ " as group " ++
      toString new ++ "; was group " ++ toString old
  | .unterminatedComment => "missing ), unterminated comment"
  | .thirdBranch => "conditional backref with more than two branches"
  | .lateGlobalFlags => "global flags not at the start of the expression"
  | .unknownFlag => "unknown flag"
  | .missingFlag => "missing flag"
  | .missingFlagsEnd => "missing -, : or )"
  | .missingColon => "missing :"
  | .localeFlag => "bad inline flags: cannot use 'L' flag with a str pattern"
  | .clashingTypeFlags => "bad inline flags: flags 'a', 'u' and 'L' are incompatible"
  | .typeFlagOff => "bad inline flags: cannot turn off flags 'a', 'u' and 'L'"
  | .globalFlagOn => "bad inline flags: cannot turn on global flag"
  | .globalFlagOff => "bad inline flags: cannot turn off global flag"
  | .flagOnAndOff => "bad inline flags: flag turned on and off"

/-- What a repetition is called in messages. -/
def Greed.text : Greed → String
  | .greedy => "MAX_REPEAT"
  | .lazy => "MIN_REPEAT"
  | .possessive => "POSSESSIVE_REPEAT"

def Defect.text : Defect → String
  | .unboundedLookbehind => "look-behind requires fixed-width pattern"
  | .repetition g => "internal: unsupported template operator " ++ g.text

/-- The line and the column of an index, both counted from one. -/
def lineAndColumn (text : List Char) (index : Nat) : Nat × Nat :=
  let front := text.take index
  (front.count '\n' + 1, (front.reverse.takeWhile (· != '\n')).length + 1)

/-- Where an index lies, in words. -/
def placeText (text : List Char) (index : Nat) : String :=
  " at position " ++ toString index ++
    if text.contains '\n' then
      let (line, column) := lineAndColumn text index
      " (line " ++ toString line ++ ", column " ++ toString column ++ ")"
    else ""

/-- The wording of a fault in a pattern with the given text. -/
def Fault.message (text : String) : Fault → String
  | .at flaw index => flaw.text ++ placeText text.toList index
  | .defect d => d.text
  | .repetitionTooLarge => "the repetition number is too large"
  | .codeTooLarge => "Python int too large to convert to C int"
  | .numeral f => f.message
  | .clashingAlphabets => "ASCII and UNICODE flags are incompatible"

/-- The fault is an error of the pattern itself and not of a number in it. -/
def Fault.isMalformed : Fault → Bool
  | .at .. => true
  | .defect _ => true
  | _ => false

end Shellbox.Pattern
