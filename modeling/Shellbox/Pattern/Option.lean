import Shellbox.Pattern.Source

/-!
# Switches written in a pattern

A group may begin with letters that turn switches on, and after a minus sign with letters that turn
switches off. Without a body such letters hold for the whole pattern.
-/

namespace Shellbox.Pattern

def isFlagLetter (c : Char) : Bool := "iLmsxatu".toList.contains c

def Piece.flagLetter? : Piece → Option Char
  | .plain c => if isFlagLetter c then some c else none
  | .escaped _ => none

namespace Flags

def set (f : Flags) : Char → Flags
  | 'i' => { f with ignoreCase := true }
  | 'm' => { f with multiline := true }
  | 's' => { f with dotAll := true }
  | 'x' => { f with verbose := true }
  | 'a' => { f with ascii := true }
  | 'u' => { f with unicode := true }
  | 't' => { f with template := true }
  | _ => f

/-- What is on in either. -/
def union (f g : Flags) : Flags where
  ignoreCase := f.ignoreCase || g.ignoreCase
  multiline := f.multiline || g.multiline
  dotAll := f.dotAll || g.dotAll
  verbose := f.verbose || g.verbose
  ascii := f.ascii || g.ascii
  unicode := f.unicode || g.unicode
  template := f.template || g.template

/-- Some switch is on in both. -/
def overlaps (f g : Flags) : Bool :=
  (f.ignoreCase && g.ignoreCase) || (f.multiline && g.multiline) || (f.dotAll && g.dotAll) ||
    (f.verbose && g.verbose) || (f.ascii && g.ascii) || (f.unicode && g.unicode) ||
    (f.template && g.template)

/-- Turns switches on and off; one alphabet replaces the other. -/
def adjust (f on off : Flags) : Flags where
  ignoreCase := (f.ignoreCase || on.ignoreCase) && !off.ignoreCase
  multiline := (f.multiline || on.multiline) && !off.multiline
  dotAll := (f.dotAll || on.dotAll) && !off.dotAll
  verbose := (f.verbose || on.verbose) && !off.verbose
  ascii := if on.ascii || on.unicode then on.ascii else f.ascii
  unicode := if on.ascii || on.unicode then on.unicode else f.unicode
  template := f.template

end Flags

/-- Reads letters that turn switches on; gives them with the piece that ends them. -/
def flagsOn : Nat → Flags → Char → Source → Except Fault ((Flags × Char) × Source)
  | 0, _, _, s => s.flaw .missingFlagsEnd 0
  | fuel + 1, on, c, s =>
    if c = 'L' then s.flaw .localeFlag 0
    else if (c = 'a' && on.unicode) || (c = 'u' && on.ascii) then s.flaw .clashingTypeFlags 0
    else do
      let on := on.set c
      let (p, s) ← s.take
      match p with
      | none => s.flaw .missingFlagsEnd 0
      | some (.plain ')') => .ok ((on, ')'), s)
      | some (.plain '-') => .ok ((on, '-'), s)
      | some (.plain ':') => .ok ((on, ':'), s)
      | some p =>
        match p.flagLetter? with
        | some d => flagsOn fuel on d s
        | none => s.flaw (if p.isLetter then .unknownFlag else .missingFlagsEnd) p.length

/-- Reads letters that turn switches off, up to the colon. -/
def flagsOff : Nat → Flags → Char → Source → Except Fault (Flags × Source)
  | 0, _, _, s => s.flaw .missingColon 0
  | fuel + 1, off, c, s =>
    if c = 'a' || c = 'u' || c = 'L' then s.flaw .typeFlagOff 0
    else do
      let off := off.set c
      let (p, s) ← s.take
      match p with
      | none => s.flaw .missingColon 0
      | some (.plain ':') => .ok (off, s)
      | some p =>
        match p.flagLetter? with
        | some d => flagsOff fuel off d s
        | none => s.flaw (if p.isLetter then .unknownFlag else .missingColon) p.length

/-- Reads the switches behind a minus sign. -/
def readFlagsOff (s : Source) : Except Fault (Flags × Source) := do
  let (p, s) ← s.take
  match p with
  | none => s.flaw .missingFlag 0
  | some p =>
    match p.flagLetter? with
    | some c => flagsOff (s.rest.length + 1) {} c s
    | none => s.flaw (if p.isLetter then .unknownFlag else .missingFlag) p.length

/--
Reads the switches of a group that begin with a letter or a minus sign. Gives the switches turned on
and off, or `none` when they hold for the whole pattern.
-/
def readFlags (s : Source) (c : Char) : Except Fault (Option (Flags × Flags) × Source) := do
  let ((on, closing), s) ←
    if c = '-' then .ok (({}, '-'), s) else flagsOn (s.rest.length + 1) {} c s
  if closing = ')' then .ok (none, { s with flags := s.flags.union on })
  else if on.template then s.flaw .globalFlagOn 1
  else
    let (off, s) ← if closing = '-' then readFlagsOff s else .ok ({}, s)
    if off.template then s.flaw .globalFlagOff 1
    else if on.overlaps off then s.flaw .flagOnAndOff 1
    else .ok (some (on, off), s)

end Shellbox.Pattern
