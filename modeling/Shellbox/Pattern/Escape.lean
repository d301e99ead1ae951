import Shellbox.Pattern.Source

/-!
# Escapes

What a backslash and the characters after it mean, outside of sets and inside.
-/

namespace Shellbox.Pattern

def isAsciiDigit (c : Char) : Bool := '0' ≤ c && c ≤ '9'

def isOctalDigit (c : Char) : Bool := '0' ≤ c && c ≤ '7'

/-- A hexadecimal digit of either case. -/
def isHexDigit (c : Char) : Bool := (hexDigitValue? c).isSome
where
  /-- The value of a hexadecimal digit. -/
  hexDigitValue? (c : Char) : Option Nat :=
    if isAsciiDigit c then some (c.toNat - 48)
    else if 'a' ≤ c && c ≤ 'f' then some (c.toNat - 87)
    else if 'A' ≤ c && c ≤ 'F' then some (c.toNat - 55)
    else none

/-- A letter from A to Z of either case. -/
def isAsciiLetter (c : Char) : Bool := ('a' ≤ c && c ≤ 'z') || ('A' ≤ c && c ≤ 'Z')

/-- The number that digits of a base denote. -/
def ofDigits (base : Nat) (cs : List Char) : Nat :=
  cs.foldl (fun n c => n * base + (isHexDigit.hexDigitValue? c).getD 0) 0

/-- The text of an escape that began with a character and went on. -/
def escapeText (c : Char) (more : List Char) : String := String.ofList ('\\' :: c :: more)

/-- The class that an escape letter names. -/
def namedClass? (ascii : Bool) : Char → Option CharClass
  | 'd' => some ⟨.digit, false, ascii⟩
  | 'D' => some ⟨.digit, true, ascii⟩
  | 's' => some ⟨.space, false, ascii⟩
  | 'S' => some ⟨.space, true, ascii⟩
  | 'w' => some ⟨.word, false, ascii⟩
  | 'W' => some ⟨.word, true, ascii⟩
  | _ => none

/-- The control character that an escape letter names. -/
def controlCode? : Char → Option Nat
  | 'a' => some 7
  | 'b' => some 8
  | 'f' => some 12
  | 'n' => some 10
  | 'r' => some 13
  | 't' => some 9
  | 'v' => some 11
  | '\\' => some 92
  | _ => none

/-- The place that an escape letter names. -/
def namedAnchor? (ascii : Bool) : Char → Option Anchor
  | 'A' => some .textStart
  | 'Z' => some .textEnd
  | 'b' => some (.wordBoundary ascii)
  | 'B' => some (.notWordBoundary ascii)
  | _ => none

/-- A code point in a fixed number of hexadecimal digits. -/
def readHexCode (s : Source) (c : Char) (count : Nat) : Except Fault (Nat × Source) := do
  let (ds, s) ← s.takeWhile isHexDigit count
  if ds.length < count then s.flaw (.incompleteEscape (escapeText c ds)) (ds.length + 2)
  else if ofDigits 16 ds ≥ 0x80000000 then .error .codeTooLarge
  else if ofDigits 16 ds > 0x10FFFF then s.flaw (.badEscape (escapeText c ds)) (ds.length + 2)
  else .ok (ofDigits 16 ds, s)

/-- A code point by its name in braces. No names are known here, so every name is refused: patterns
that name a character are left out wherever a pattern is assumed to compile. -/
def readNamedCode (s : Source) : Except Fault (Nat × Source) := do
  let (opened, s) ← s.takeIf '\x7b'
  if !opened then s.flaw .missingBrace 0
  else
    let (name, s) ← s.nameUntil "character name" '\x7d'
    s.flaw (.unknownCharacterName name) (name.length + 4)

/-- A code point in octal digits; the first is read already. -/
def octalCode (s : Source) (c : Char) (more : List Char) : Except Fault (Nat × Source) :=
  let n := ofDigits 8 (c :: more)
  if n > 0o377 then s.flaw (.octalTooLarge (escapeText c more)) (more.length + 2)
  else .ok (n, s)

/-- The code point of an escape that is neither a class nor a number. -/
def readCode (s : Source) (c : Char) : Except Fault (Nat × Source) :=
  match c with
  | 'x' => readHexCode s c 2
  | 'u' => readHexCode s c 4
  | 'U' => readHexCode s c 8
  | 'N' => readNamedCode s
  | _ =>
    if isAsciiLetter c then s.flaw (.badEscape (escapeText c [])) 2 else .ok (c.toNat, s)

/-- An escape inside a set; the letter after the backslash is read already. -/
def readSetEscape (cx : Flags) (s : Source) (c : Char) : Except Fault (SetItem × Source) :=
  match controlCode? c with
  | some n => .ok (.code n, s)
  | none =>
    match namedClass? cx.ascii c with
    | some k => .ok (.named k, s)
    | none => do
      if isOctalDigit c then
        let (ds, s) ← s.takeWhile isOctalDigit 2
        let (n, s) ← octalCode s c ds
        .ok (.code n, s)
      else if isAsciiDigit c then s.flaw (.badEscape (escapeText c [])) 2
      else
        let (n, s) ← readCode s c
        .ok (.code n, s)

def codePattern (cx : Flags) (n : Nat) : Pattern := .one (.ofCode cx.fold false n)

/-- A reference back to a group; its number takes `back` characters with the backslash. -/
def groupReference (cx : Flags) (s : Source) (g back : Nat) : Except Fault (Pattern × Source) :=
  if g < s.nextGroup then
    if (s.groupWidth? g).isNone then s.flaw .openGroup back
    else do
      s.checkLookbehind g
      .ok (.backref g cx.fold, s)
  else s.flaw (.invalidGroup g) (back - 1)

/-- An escape that begins with a digit: an octal code point or a group. -/
def readNumberEscape (cx : Flags) (s : Source) (c : Char) : Except Fault (Pattern × Source) := do
  if c = '0' then
    let (ds, s) ← s.takeWhile isOctalDigit 2
    .ok (codePattern cx (ofDigits 8 (c :: ds)), s)
  else
    let (d, s) ← s.takeWhile isAsciiDigit 1
    let (e, s) ←
      if (c :: d).all isOctalDigit && d.length = 1 then s.takeWhile isOctalDigit 1
      else .ok ([], s)
    if e.isEmpty then groupReference cx s (ofDigits 10 (c :: d)) (d.length + 2)
    else
      let (n, s) ← octalCode s c (d ++ e)
      .ok (codePattern cx n, s)

/-- An escape outside of sets; the letter after the backslash is read already. -/
def readEscape (cx : Flags) (s : Source) (c : Char) : Except Fault (Pattern × Source) :=
  match namedAnchor? cx.ascii c with
  | some a => .ok (.anchor a, s)
  | none =>
    match namedClass? cx.ascii c with
    | some k => .ok (.one (.ofItems cx.fold false [.named k]), s)
    | none =>
      match controlCode? c with
      | some n => .ok (codePattern cx n, s)
      | none =>
        if isAsciiDigit c then readNumberEscape cx s c
        else do
          let (n, s) ← readCode s c
          .ok (codePattern cx n, s)

end Shellbox.Pattern
