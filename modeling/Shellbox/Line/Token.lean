import Shellbox.Line.Quoting

/-!
# Tokens

A line is a list of words and control operators. Quotes and backslashes are dropped from words; a
pair of quotes with nothing inside still makes an empty word. Two redirect signs side by side make
one append operator.
-/

namespace Shellbox.Line

/-- The control operators of a line. -/
inductive Operator where
  | pipe
  | redirect
  | append
deriving DecidableEq, Repr

def Operator.text : Operator → String
  | .pipe => "|"
  | .redirect => ">"
  | .append => ">>"

/-- A word or an operator. -/
inductive Token where
  | word (text : String)
  | operator (op : Operator)
deriving DecidableEq, Repr

namespace Token

/-- The text of a word, or the spelling of an operator. -/
def text : Token → String
  | .word t => t
  | .operator o => o.text

def isOperator : Token → Bool
  | .word _ => false
  | .operator _ => true

def isRedirect : Token → Bool
  | .operator .redirect => true
  | .operator .append => true
  | _ => false

/-- The word under way, if one has begun. -/
def flush : Option String → List Token
  | none => []
  | some w => [.word w]

/-- Gathers labelled characters into tokens, with the word under way. -/
def gather (word : Option String) : List (Char × CharKind) → List Token
  | [] => flush word
  | (c, .literal) :: r => gather (some ((word.getD "").push c)) r
  | (_, .escape) :: r => gather word r
  | (_, .quote) :: r => gather (some (word.getD "")) r
  | (_, .space) :: r => flush word ++ gather none r
  | (_, .pipe) :: r => flush word ++ operator .pipe :: gather none r
  | (_, .redirect) :: (_, .redirect) :: r => flush word ++ operator .append :: gather none r
  | (_, .redirect) :: r => flush word ++ operator .redirect :: gather none r

end Token

def scan (line : String) : List Token := Token.gather none (labels line)

def tokenTexts (line : String) : List String := (scan line).map Token.text

/-! ## Writing words -/

/-- The characters of a word with a backslash before every double quote and backslash. -/
def escapeChars : List Char → List Char
  | [] => []
  | c :: r => if c = '"' ∨ c = '\\' then '\\' :: c :: escapeChars r else c :: escapeChars r

/-- A word in double quotes; `scan` reads it back as one word. -/
def quote (word : String) : String := String.ofList ('"' :: escapeChars word.toList ++ ['"'])

/-- Words in double quotes, with one blank between neighbours. -/
def quoteWords (ws : List String) : String := " ".intercalate (ws.map quote)

end Shellbox.Line
