import Shellbox.Text.Blank

/-!
# Labels of the characters of a command line

One state machine follows quotes and backslashes through a line and labels every character. Words,
stages and redirections are all read off these labels. A backslash escapes the next character
everywhere, inside either kind of quotes too. The lemmas say how labels and state pass over an
append.
-/

namespace Shellbox.Line

open Shellbox.Text

/-- What a character does in a command line. -/
inductive CharKind where
  /-- Part of a word. -/
  | literal
  /-- A backslash that escapes the next character. -/
  | escape
  /-- An opening or closing quote. -/
  | quote
  /-- A blank outside quotes. -/
  | space
  /-- A bar outside quotes. -/
  | pipe
  /-- A greater-than sign outside quotes. -/
  | redirect
deriving DecidableEq, Repr

/-- The two kinds of quotes. -/
inductive QuoteMark where
  | single
  | double
deriving DecidableEq, Repr

/-- The character that opens and closes a span. -/
def QuoteMark.char : QuoteMark → Char
  | .single => '\''
  | .double => '"'

/-- What is pending between two characters of a line. -/
structure QuoteState where
  /-- The quotes that are open, if any. -/
  openMark : Option QuoteMark
  /-- The last character was a backslash that escapes the next one. -/
  escaped : Bool
deriving DecidableEq, Repr

namespace QuoteState

/-- Nothing is pending. -/
def clean : QuoteState := ⟨none, false⟩

def isQuoted (s : QuoteState) : Bool := s.openMark.isSome

/-- The label of the next character. -/
def kind (s : QuoteState) (c : Char) : CharKind :=
  if s.escaped then .literal
  else if c = '\\' then .escape
  else match s.openMark with
    | some m => if c = m.char then .quote else .literal
    | none =>
      if c = '\'' ∨ c = '"' then .quote
      else if isBlank c then .space
      else if c = '|' then .pipe
      else if c = '>' then .redirect
      else .literal

/-- The state after the next character. -/
def next (s : QuoteState) (c : Char) : QuoteState :=
  if s.escaped then { s with escaped := false }
  else if c = '\\' then { s with escaped := true }
  else match s.openMark with
    | some m => if c = m.char then clean else s
    | none =>
      if c = '\'' then ⟨some .single, false⟩
      else if c = '"' then ⟨some .double, false⟩
      else s

def after (s : QuoteState) (cs : List Char) : QuoteState := cs.foldl next s

/-- Each character with its label, read from a state on. -/
def label (s : QuoteState) (cs : List Char) : List (Char × CharKind) :=
  List.zipWith (fun st c => (c, kind st c)) (cs.scanl next s) cs

@[simp] theorem after_nil (s : QuoteState) : s.after [] = s := rfl

@[simp] theorem after_cons (s : QuoteState) (c : Char) (cs : List Char) :
    s.after (c :: cs) = (s.next c).after cs := rfl

@[simp] theorem after_append (s : QuoteState) (as bs : List Char) :
    s.after (as ++ bs) = (s.after as).after bs := by
  simp [after]

@[simp] theorem label_nil (s : QuoteState) : s.label [] = [] := by
  simp [label]

@[simp] theorem label_cons (s : QuoteState) (c : Char) (cs : List Char) :
    s.label (c :: cs) = (c, s.kind c) :: (s.next c).label cs := by
  simp [label]

theorem label_append (s : QuoteState) (as bs : List Char) :
    s.label (as ++ bs) = s.label as ++ (s.after as).label bs := by
  induction as generalizing s with
  | nil => simp
  | cons c cs ih => simp [ih]

end QuoteState

/-- The characters of a line with their labels. -/
def labels (line : String) : List (Char × CharKind) := QuoteState.clean.label line.toList

/-- What is pending at the end of a line. -/
def endState (line : String) : QuoteState := QuoteState.clean.after line.toList

/-- A bar stands outside quotes. -/
def hasPipe (line : String) : Bool := (labels line).any (·.2 = .pipe)

/-- A greater-than sign stands outside quotes. -/
def hasRedirect (line : String) : Bool := (labels line).any (·.2 = .redirect)

end Shellbox.Line
