import Shellbox.Pattern.Fault
import Shellbox.Text.Letter

/-!
# Reading the text of a pattern

A pattern is read in pieces: a plain character, or a backslash with the character after it. The next
piece is always known, so a backslash that ends the text is noticed as soon as it comes next.
-/

namespace Shellbox.Pattern

/-- Switches that change how a pattern is read or matched. -/
structure Flags where
  ignoreCase : Bool := false
  multiline : Bool := false
  dotAll : Bool := false
  verbose : Bool := false
  ascii : Bool := false
  unicode : Bool := false
  template : Bool := false
deriving DecidableEq, Repr

/-- How letter case counts under the switches. -/
def Flags.fold (f : Flags) : Fold :=
  if f.ignoreCase then (if f.ascii then .ascii else .unicode) else .exact

/-- A piece of the text of a pattern. -/
inductive Piece where
  | plain (c : Char)
  | escaped (c : Char)
deriving DecidableEq, Repr

def Piece.chars : Piece → List Char
  | .plain c => [c]
  | .escaped c => ['\\', c]

def Piece.text (p : Piece) : String := String.ofList p.chars

def Piece.length (p : Piece) : Nat := p.chars.length

def Piece.isLetter : Piece → Bool
  | .plain c => Text.isLetter c
  | .escaped _ => false

/-- What is known while a pattern is read. -/
structure Source where
  /-- The characters not read yet. -/
  rest : List Char
  /-- The index of the first of them. -/
  pos : Nat
  /-- Switches set for the whole pattern. -/
  flags : Flags
  /-- The width of each closed group, from group 1 on; an open group has none. -/
  groups : List (Option (Nat × Nat))
  /-- The numbers of named groups. -/
  names : List (String × Nat)
  /-- Inside a look behind, the number of groups before it. -/
  lookbehind : Option Nat
  /-- Groups that conditions refer to by number, each with the place of the first reference. -/
  conditions : List (Nat × Nat)

namespace Source

/-- A flaw some characters before the next piece. -/
def flaw {α : Type} (s : Source) (f : Flaw) (back : Nat) : Except Fault α :=
  .error (.at f (s.pos - back))

def peek (s : Source) : Option Piece :=
  match s.rest with
  | [] => none
  | '\\' :: c :: _ => some (.escaped c)
  | c :: _ => some (.plain c)

/-- The next piece is this plain character. -/
def isNext (s : Source) (c : Char) : Bool := s.peek = some (.plain c)

def skip (s : Source) (n : Nat) : Except Fault Source :=
  let s := { s with rest := s.rest.drop n, pos := s.pos + n }
  if s.rest = ['\\'] then .error (.at .escapeAtEnd s.pos) else .ok s

def take (s : Source) : Except Fault (Option Piece × Source) :=
  match s.peek with
  | none => .ok (none, s)
  | some p => do
    let s ← s.skip p.length
    .ok (some p, s)

/-- Takes a plain character if it comes next. -/
def takeIf (s : Source) (c : Char) : Except Fault (Bool × Source) :=
  if s.isNext c then do
    let s ← s.skip 1
    .ok (true, s)
  else .ok (false, s)

/-- Takes the characters that come next and pass a test, at most `limit` of them. -/
def takeWhile (s : Source) (test : Char → Bool) (limit : Nat) :
    Except Fault (List Char × Source) :=
  let cs := (s.rest.take limit).takeWhile test
  if cs.isEmpty then .ok ([], s)
  else do
    let s ← s.skip cs.length
    .ok (cs, s)

/-- The pieces up to a closing character, with the fuel of the characters left. -/
def takeName (what : String) (closing : Char) :
    Nat → List Char → Source → Except Fault (String × Source)
  | 0, _, s => s.flaw (.missingName what) 0
  | fuel + 1, acc, s =>
    match s.peek with
    | none =>
      if acc.isEmpty then s.flaw (.missingName what) 0
      else s.flaw (.unterminatedName closing) acc.length
    | some p => do
      let s ← s.skip p.length
      if p = .plain closing then
        if acc.isEmpty then s.flaw (.missingName what) 1 else .ok (String.ofList acc, s)
      else takeName what closing fuel (acc ++ p.chars) s

def nameUntil (s : Source) (what : String) (closing : Char) : Except Fault (String × Source) :=
  takeName what closing (s.rest.length + 1) [] s

/-- Passes over the pieces up to a plain character and over it too; tells whether it came. -/
def skipPast (closing : Char) : Nat → Source → Except Fault (Bool × Source)
  | 0, s => .ok (false, s)
  | fuel + 1, s =>
    match s.peek with
    | none => .ok (false, s)
    | some p => do
      let s ← s.skip p.length
      if p = .plain closing then .ok (true, s) else skipPast closing fuel s

/-! ## Groups -/

def nextGroup (s : Source) : Nat := s.groups.length + 1

/-- The width of a group, if there is such a group and it is closed. -/
def groupWidth? (s : Source) (g : Nat) : Option (Nat × Nat) :=
  match g with
  | 0 => none
  | i + 1 => (s.groups[i]?).join

/-- The width of a group; one that is not closed counts for nothing. -/
def groupWidth (s : Source) (g : Nat) : Nat × Nat := (s.groupWidth? g).getD (0, 0)

/-- The width of a pattern with the groups so far. -/
def widthOf (s : Source) (p : Pattern) : Nat × Nat := p.width s.groupWidth

/-- Refuses inside a look behind a group that is not closed or began in the same look behind. -/
def checkLookbehind (s : Source) (g : Nat) : Except Fault Unit :=
  match s.lookbehind with
  | none => .ok ()
  | some n =>
    if (s.groupWidth? g).isNone then s.flaw .openGroup 0
    else if g > n then s.flaw .lookbehindGroup 0
    else .ok ()

/-- Opens a group, under a name if it has one. -/
def openGroup (s : Source) (name : Option String) : Except Fault (Nat × Source) :=
  let g := s.nextGroup
  let s' := { s with groups := s.groups ++ [none] }
  match name with
  | none => .ok (g, s')
  | some n =>
    match s.names.lookup n with
    | some old => s.flaw (.nameTaken n g old) (n.length + 1)
    | none => .ok (g, { s' with names := s.names ++ [(n, g)] })

def closeGroup (s : Source) (g : Nat) (p : Pattern) : Source :=
  { s with groups := s.groups.set (g - 1) (some (s.widthOf p)) }

def ofText (flags : Flags) (text : List Char) : Except Fault Source :=
  Source.skip ⟨text, 0, flags, [], [], none, []⟩ 0

end Source

end Shellbox.Pattern
