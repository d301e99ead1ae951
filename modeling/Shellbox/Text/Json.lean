/-!
# Well-formed JSON

Tells whether a text is a single JSON value. Besides the standard forms there are the numbers `NaN`,
`Infinity` and `-Infinity`, and any four digits may follow `\u`. A whole number may have at most
4300 digits, and arrays and objects that are nested too deep are given up. Each reader takes what it
reads off the front of the characters and gives the rest.
-/

namespace Shellbox.Text.Json

def isSpace (c : Char) : Bool := c = ' ' || c = '\t' || c = '\n' || c = '\r'

def skipSpaces (cs : List Char) : List Char := cs.dropWhile isSpace

def isDigitChar (c : Char) : Bool := '0' ≤ c && c ≤ '9'

def isHexChar (c : Char) : Bool :=
  isDigitChar c || ('a' ≤ c && c ≤ 'f') || ('A' ≤ c && c ≤ 'F')

/-- Takes given characters off the front. -/
def literal? : List Char → List Char → Option (List Char)
  | [], cs => some cs
  | _ :: _, [] => none
  | a :: as, c :: cs => if a = c then literal? as cs else none

/-- The rest behind a string whose opening quote is read already. -/
def stringRest? : List Char → Option (List Char)
  | [] => none
  | '"' :: r => some r
  | '\\' :: 'u' :: a :: b :: c :: d :: r =>
    if isHexChar a && isHexChar b && isHexChar c && isHexChar d then stringRest? r else none
  | '\\' :: c :: r => if "\"\\/bfnrt".toList.contains c then stringRest? r else none
  | c :: r => if c.toNat < 32 || c = '\\' then none else stringRest? r

def maxWholeDigits : Nat := 4300

/-- The digits of the whole part of a number: a zero alone, or digits that begin with another. -/
def wholePart (cs : List Char) : List Char :=
  match cs with
  | '0' :: _ => ['0']
  | cs => cs.takeWhile isDigitChar

/-- The rest behind a fraction, if there is one. -/
def fractionRest? (cs : List Char) : Option (List Char) :=
  match cs with
  | '.' :: c :: r => if isDigitChar c then some (r.dropWhile isDigitChar) else none
  | _ => none

/-- The rest behind the digits of an exponent, if there are any. -/
def exponentDigitsRest? (cs : List Char) : Option (List Char) :=
  match cs with
  | c :: r => if isDigitChar c then some (r.dropWhile isDigitChar) else none
  | [] => none

/-- The rest behind an exponent, if there is one. -/
def exponentRest? (cs : List Char) : Option (List Char) :=
  match cs with
  | e :: r =>
    if e = 'e' || e = 'E' then
      match r with
      | '+' :: r => exponentDigitsRest? r
      | '-' :: r => exponentDigitsRest? r
      | r => exponentDigitsRest? r
    else none
  | [] => none

/-- The rest behind a number without a sign. -/
def unsignedRest? (cs : List Char) : Option (List Char) :=
  let whole := wholePart cs
  let rest := cs.drop whole.length
  if whole.isEmpty then none
  else
    match fractionRest? rest with
    | some r => some ((exponentRest? r).getD r)
    | none =>
      match exponentRest? rest with
      | some r => some r
      | none => if whole.length > maxWholeDigits then none else some rest

def numberRest? (cs : List Char) : Option (List Char) :=
  match cs with
  | '-' :: 'I' :: r => literal? "nfinity".toList r
  | '-' :: r => unsignedRest? r
  | cs => unsignedRest? cs

/-! ## Values -/

/-- What holds other values. -/
inductive Container where
  | array
  | object
deriving DecidableEq, Repr

/-- Why a text is not read as a value. -/
inductive Flaw where
  | malformed
  /-- This would be nested too deep. -/
  | tooDeep (c : Container)
deriving DecidableEq, Repr

def maxDepth : Nat := 985

/-- What a reader gives, or a flaw if it gives nothing. -/
def orMalformed (rest : Option (List Char)) : Except Flaw (List Char) :=
  match rest with
  | some r => .ok r
  | none => .error .malformed

mutual
/-- The rest behind a value that is nested `depth` deep. -/
def valueRest (fuel depth : Nat) (cs : List Char) : Except Flaw (List Char) :=
  match fuel with
  | 0 => .error .malformed
  | fuel + 1 =>
    match cs with
    | '"' :: r => orMalformed (stringRest? r)
    | '[' :: r =>
      if depth ≥ maxDepth then .error (.tooDeep .array)
      else
        match skipSpaces r with
        | ']' :: r => .ok r
        | r => itemsRest fuel (depth + 1) r
    | '\x7b' :: r =>
      if depth ≥ maxDepth then .error (.tooDeep .object)
      else
        match skipSpaces r with
        | '\x7d' :: r => .ok r
        | r => membersRest fuel (depth + 1) r
    | 'n' :: r => orMalformed (literal? "ull".toList r)
    | 't' :: r => orMalformed (literal? "rue".toList r)
    | 'f' :: r => orMalformed (literal? "alse".toList r)
    | 'N' :: r => orMalformed (literal? "aN".toList r)
    | 'I' :: r => orMalformed (literal? "nfinity".toList r)
    | cs => orMalformed (numberRest? cs)
termination_by structural fuel

/-- The rest behind the items of an array, of which there is at least one. -/
def itemsRest (fuel depth : Nat) (cs : List Char) : Except Flaw (List Char) :=
  match fuel with
  | 0 => .error .malformed
  | fuel + 1 =>
    match valueRest fuel depth cs with
    | .error f => .error f
    | .ok r =>
      match skipSpaces r with
      | ']' :: r => .ok r
      | ',' :: r => itemsRest fuel depth (skipSpaces r)
      | _ => .error .malformed
termination_by structural fuel

/-- The rest behind the members of an object, of which there is at least one. -/
def membersRest (fuel depth : Nat) (cs : List Char) : Except Flaw (List Char) :=
  match fuel with
  | 0 => .error .malformed
  | fuel + 1 =>
    match cs with
    | '"' :: r =>
      match (stringRest? r).map skipSpaces with
      | some (':' :: r) =>
        match valueRest fuel depth (skipSpaces r) with
        | .error f => .error f
        | .ok r =>
          match skipSpaces r with
          | '\x7d' :: r => .ok r
          | ',' :: r => membersRest fuel depth (skipSpaces r)
          | _ => .error .malformed
      | _ => .error .malformed
    | _ => .error .malformed
termination_by structural fuel
end

/-- Tells whether the text is a single JSON value, with blanks around it at most, unless a part of
it is nested too deep. -/
def isValue (s : String) : Except Container Bool :=
  match valueRest (s.length + 1) 0 (skipSpaces s.toList) with
  | .ok r => .ok (skipSpaces r).isEmpty
  | .error .malformed => .ok false
  | .error (.tooDeep c) => .error c

end Shellbox.Text.Json
