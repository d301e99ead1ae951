import Shellbox.Number.Integer
import Shellbox.Pattern.Escape
import Shellbox.Pattern.Option
import Shellbox.Text.Identifier

/-!
# From text to pattern

Reads the text of a regular expression. The functions that call each other take fuel, of which a
fixed multiple of the length of the text is enough, since every call but a few takes a character.
-/

namespace Shellbox.Pattern

open Shellbox.Text Shellbox.Number

/-! ## Sets -/

/-- The test that items and a sign make; a single code point makes no set. -/
def setTest (cx : Flags) (negated : Bool) (items : List SetItem) : CharTest :=
  match items.eraseDups with
  | [.code n] => .ofCode cx.fold negated n
  | items => .ofItems cx.fold negated items

/-- The item that a piece inside a set stands for. -/
def readSetItem (cx : Flags) (s : Source) : Piece → Except Fault (SetItem × Source)
  | .plain c => .ok (.code c.toNat, s)
  | .escaped c => readSetEscape cx s c

/-- The range between two items, if both are single code points in order. -/
def rangeOf? : SetItem → SetItem → Option SetItem
  | .code a, .code b => if a ≤ b then some (.range a b) else none
  | _, _ => none

/-- The items of a set up to its closing bracket; the first item may itself be a bracket. -/
def readSetItems (cx : Flags) (start : Nat) :
    Nat → List SetItem → Source → Except Fault (List SetItem × Source)
  | 0, _, _ => .error (.at .unterminatedSet start)
  | fuel + 1, items, s => do
    let (p, s) ← s.take
    match p with
    | none => .error (.at .unterminatedSet start)
    | some p =>
      if p = .plain ']' && !items.isEmpty then .ok (items, s)
      else
        let (a, s) ← readSetItem cx s p
        let (dash, s) ← s.takeIf '-'
        if !dash then readSetItems cx start fuel (items ++ [a]) s
        else
          let (q, s) ← s.take
          match q with
          | none => .error (.at .unterminatedSet start)
          | some q =>
            if q = .plain ']' then .ok (items ++ [a, .code 45], s)
            else
              let (b, s) ← readSetItem cx s q
              match rangeOf? a b with
              | some r => readSetItems cx start fuel (items ++ [r]) s
              | none => s.flaw (.badRange p.text q.text) (p.length + 1 + q.length)

/-- A set; its opening bracket is read already. -/
def readSet (cx : Flags) (s : Source) : Except Fault (Pattern × Source) := do
  let start := s.pos - 1
  let (negated, s) ← s.takeIf '^'
  let (items, s) ← readSetItems cx start (s.rest.length + 1) [] s
  .ok (.one (setTest cx negated items), s)

/-! ## Repetitions -/

def readBound (ds : List Char) : Except Fault Nat :=
  match readNumeral (String.ofList ds) with
  | .error f => .error (.numeral f)
  | .ok n => if n ≥ unbounded then .error .repetitionTooLarge else .ok n

/-- The bounds that digits before and after the comma denote. -/
def readBounds (here : Nat) (lo hi : List Char) : Except Fault (Nat × Option Nat) := do
  let least ← if lo.isEmpty then .ok 0 else readBound lo
  if hi.isEmpty then .ok (least, none)
  else
    let most ← readBound hi
    if most < least then .error (.at .leastAboveMost here) else .ok (least, some most)

/-- Bounds in braces; the opening brace is read already. Other text behind it makes no bounds. -/
def readBraces (s : Source) : Except Fault (Option (Nat × Option Nat) × Source) := do
  if s.isNext '\x7d' then .ok (none, s)
  else
    let (lo, t) ← s.takeWhile isAsciiDigit s.rest.length
    let (comma, t) ← t.takeIf ','
    let (hi, t) ← if comma then t.takeWhile isAsciiDigit t.rest.length else .ok (lo, t)
    let (closed, t) ← t.takeIf '\x7d'
    if !closed then .ok (none, s)
    else
      let b ← readBounds s.pos lo hi
      .ok (some b, t)

/-- The bounds of a repetition that begins with a character. -/
def readRepeat (s : Source) : Char → Except Fault (Option (Nat × Option Nat) × Source)
  | '*' => .ok (some (0, none), s)
  | '+' => .ok (some (1, none), s)
  | '?' => .ok (some (0, some 1), s)
  | _ => readBraces s

def readGreed (s : Source) : Except Fault (Greed × Source) := do
  let (isLazy, s) ← s.takeIf '?'
  if isLazy then .ok (.lazy, s)
  else
    let (possessive, s) ← s.takeIf '+'
    .ok (if possessive then .possessive else .greedy, s)

/-! ## Sequences -/

/-- What may follow an item of a sequence. -/
inductive ItemSort where
  /-- It may be repeated. -/
  | repeatable
  /-- It takes no character and may not be repeated. -/
  | place
  /-- It is a repetition and may not be repeated again. -/
  | repetition
deriving DecidableEq, Repr

/-- An item of a sequence: one part, or the parts of a group without a number. -/
structure Item where
  parts : List Pattern
  sort : ItemSort

def Item.plain (p : Pattern) : Item := ⟨[p], .repeatable⟩

def Item.ofPart (p : Pattern) : Item :=
  match p with
  | .anchor a => ⟨[.anchor a], .place⟩
  | p => .plain p

/-- The parts of items that are held last first. -/
def joinItems (items : List Item) : List Pattern := items.reverse.flatMap (·.parts)

/-- Repeats the last item. -/
def repeatLast (items : List Item) (index : Nat) (least : Nat) (most : Option Nat)
    (s : Source) : Except Fault (List Item × Source) :=
  match items with
  | [] => .error (.at .nothingToRepeat index)
  | item :: r =>
    match item.sort with
    | .place => .error (.at .nothingToRepeat index)
    | .repetition => .error (.at .repeatedRepeat index)
    | .repeatable => do
      let (greed, s) ← readGreed s
      .ok (⟨[(seqOf item.parts).repeated least most greed], .repetition⟩ :: r, s)

/-- The part that a plain character stands for. -/
def plainPart (cx : Flags) : Char → Pattern
  | '.' => .one (.any cx.dotAll)
  | '^' => .anchor (if cx.multiline then .lineStart else .textStart)
  | '$' => .anchor (if cx.multiline then .lineEnd else .lastLineEnd)
  | c => codePattern cx c.toNat

/-- A blank that a verbose pattern passes over. -/
def isVerboseBlank (c : Char) : Bool := c = ' ' || (9 ≤ c.toNat && c.toNat ≤ 13)

/-- A character that begins a repetition. -/
def beginsRepeat (c : Char) : Bool := c = '*' || c = '+' || c = '?' || c = '\x7b'

/-! ## Groups -/

/-- How a group begins, with everything in front of its body. -/
inductive GroupHead where
  | capture (name : Option String)
  | plain
  | atomic
  | switched (on off : Flags)
  | ahead (negated : Bool)
  | behind (negated : Bool)
  | ifGroup (group : Nat)
  /-- A whole item without a body. -/
  | done (item : Pattern)
  /-- A comment. -/
  | nothing
  /-- Switches for the whole pattern. -/
  | global

/-- Refuses what is no name. -/
def checkName (s : Source) (name : String) : Except Fault Unit :=
  if isIdentifier name.toList then .ok () else s.flaw (.badGroupName name) (name.length + 1)

/-- The group of a name that was just read. -/
def groupOfName (s : Source) (name : String) : Except Fault Nat :=
  match s.names.lookup name with
  | some g => .ok g
  | none => s.flaw (.unknownGroupName name) (name.length + 1)

def readNamedReference (cx : Flags) (s : Source) : Except Fault (GroupHead × Source) := do
  let (name, s) ← s.nameUntil "group name" ')'
  checkName s name
  let g ← groupOfName s name
  if (s.groupWidth? g).isNone then s.flaw .openGroup (name.length + 1)
  else
    s.checkLookbehind g
    .ok (.done (.backref g cx.fold), s)

/-- The group that a condition names or numbers. -/
def readConditionGroup (s : Source) (name : String) : Except Fault (Nat × Source) :=
  if isIdentifier name.toList then do
    let g ← groupOfName s name
    .ok (g, s)
  else
    match (readInteger? name) with
    | some (.ofNat 0) => s.flaw .badGroupNumber (name.length + 1)
    | some (.ofNat g) =>
      if g ≥ 2147483647 then s.flaw (.invalidGroup g) (name.length + 1)
      else if (s.conditions.lookup g).isSome then .ok (g, s)
      else .ok (g, { s with conditions := s.conditions ++ [(g, s.pos - name.length - 1)] })
    | _ => s.flaw (.badGroupName name) (name.length + 1)

def readNamedHead (cx : Flags) (s : Source) : Except Fault (GroupHead × Source) := do
  let (named, s) ← s.takeIf '<'
  if named then
    let (name, s) ← s.nameUntil "group name" '>'
    checkName s name
    .ok (.capture (some name), s)
  else
    let (reference, s) ← s.takeIf '='
    if reference then readNamedReference cx s
    else
      let (p, s) ← s.take
      match p with
      | none => s.flaw .unexpectedEnd 0
      | some p => s.flaw (.unknownExtension ("?P" ++ p.text)) (p.length + 2)

def readBehindHead (s : Source) : Except Fault (GroupHead × Source) := do
  let (p, s) ← s.take
  match p with
  | none => s.flaw .unexpectedEnd 0
  | some (.plain '=') => .ok (.behind false, s)
  | some (.plain '!') => .ok (.behind true, s)
  | some p => s.flaw (.unknownExtension ("?<" ++ p.text)) (p.length + 2)

/-- A comment up to its closing parenthesis. -/
def skipGroupComment (s : Source) (start : Nat) : Except Fault (GroupHead × Source) := do
  let (closed, s) ← Source.skipPast ')' (s.rest.length + 1) s
  if closed then .ok (.nothing, s) else .error (.at .unterminatedComment start)

/-- The condition of a group with two branches. -/
def readConditionHead (s : Source) : Except Fault (GroupHead × Source) := do
  let (name, s) ← s.nameUntil "group name" ')'
  let (g, s) ← readConditionGroup s name
  s.checkLookbehind g
  .ok (.ifGroup g, s)

/-- Switches at the start of a group; `fresh` tells that nothing stands before the group. -/
def readSwitchHead (s : Source) (fresh : Bool) (start : Nat) (c : Char) :
    Except Fault (GroupHead × Source) := do
  let (f, s) ← readFlags s c
  match f with
  | some (on, off) => .ok (.switched on off, s)
  | none => if fresh then .ok (.global, s) else .error (.at .lateGlobalFlags start)

/-- How a group begins; its opening parenthesis is read already. -/
def readGroupHead (cx : Flags) (fresh : Bool) (s : Source) :
    Except Fault (GroupHead × Source) := do
  let start := s.pos - 1
  let (extended, s) ← s.takeIf '?'
  if !extended then .ok (.capture none, s)
  else
    let (p, s) ← s.take
    match p with
    | none => s.flaw .unexpectedEnd 0
    | some (.plain 'P') => readNamedHead cx s
    | some (.plain ':') => .ok (.plain, s)
    | some (.plain '#') => skipGroupComment s start
    | some (.plain '=') => .ok (.ahead false, s)
    | some (.plain '!') => .ok (.ahead true, s)
    | some (.plain '<') => readBehindHead s
    | some (.plain '(') => readConditionHead s
    | some (.plain '>') => .ok (.atomic, s)
    | some (.plain '-') => readSwitchHead s fresh start '-'
    | some p =>
      match p.flagLetter? with
      | some c => readSwitchHead s fresh start c
      | none => s.flaw (.unknownExtension ("?" ++ p.text)) (p.length + 1)

def closeParenthesis (start : Nat) (s : Source) : Except Fault Source := do
  let (closed, s) ← s.takeIf ')'
  if closed then .ok s else .error (.at .unterminatedGroup start)

/-! ## The whole pattern -/

mutual
/-- The branches up to a closing parenthesis or the end, each as a sequence; at the top the switches
of the whole pattern hold for those after the first. -/
def readBranches (fuel : Nat) (cx : Flags) (top first : Bool) (s : Source) :
    Except Fault (List (List Pattern) × Source) :=
  match fuel with
  | 0 => .ok ([], s)
  | fuel + 1 => do
    let (items, s) ← readSequence fuel cx (top && first) [] s
    let (more, s) ← s.takeIf '|'
    if !more then .ok ([items], s)
    else
      let (others, s) ← readBranches fuel (if top then s.flags else cx) top false s
      .ok (items :: others, s)
termination_by structural fuel

/-- The items up to a bar, a closing parenthesis or the end, after those read so far. -/
def readSequence (fuel : Nat) (cx : Flags) (first : Bool) (items : List Item) (s : Source) :
    Except Fault (List Pattern × Source) :=
  match fuel with
  | 0 => .ok (joinItems items, s)
  | fuel + 1 =>
    match s.peek with
    | none => .ok (joinItems items, s)
    | some (.escaped c) => do
      let s ← s.skip 2
      let (p, s) ← readEscape cx s c
      readSequence fuel cx first (.ofPart p :: items) s
    | some (.plain c) =>
      if c = '|' || c = ')' then .ok (joinItems items, s)
      else do
        let s ← s.skip 1
        if cx.verbose && isVerboseBlank c then readSequence fuel cx first items s
        else if cx.verbose && c = '#' then
          let (_, s) ← Source.skipPast '\n' (s.rest.length + 1) s
          readSequence fuel cx first items s
        else if c = '[' then
          let (p, s) ← readSet cx s
          readSequence fuel cx first (.plain p :: items) s
        else if beginsRepeat c then
          let (b, t) ← readRepeat s c
          match b with
          | none => readSequence fuel cx first (.ofPart (plainPart cx c) :: items) s
          | some (least, most) =>
            let (items, t) ← repeatLast items (s.pos - 1) least most t
            readSequence fuel cx first items t
        else if c = '(' then
          let (h, t) ← readGroupHead cx (first && items.isEmpty) s
          match h with
          | .nothing => readSequence fuel cx first items t
          | .global => readSequence fuel t.flags first items t
          | .done p => readSequence fuel cx first (.plain p :: items) t
          | h =>
            let (parts, t) ← readGroupBody fuel cx (s.pos - 1) h t
            readSequence fuel cx first (⟨parts, .repeatable⟩ :: items) t
        else readSequence fuel cx first (.ofPart (plainPart cx c) :: items) s
termination_by structural fuel

/-- The parts of a group up to its closing parenthesis. -/
def readGroupBody (fuel : Nat) (cx : Flags) (start : Nat) (h : GroupHead) (s : Source) :
    Except Fault (List Pattern × Source) :=
  match fuel with
  | 0 => .ok ([], s)
  | fuel + 1 => do
    match h with
    | .capture name =>
      let (g, s) ← s.openGroup name
      let (bs, s) ← readBranches fuel cx false false s
      let s ← closeParenthesis start s
      let p := seqOf (branches cx.fold bs)
      .ok ([.capture g p], s.closeGroup g p)
    | .plain =>
      let (bs, s) ← readBranches fuel cx false false s
      let s ← closeParenthesis start s
      .ok (branches cx.fold bs, s)
    | .atomic =>
      let (bs, s) ← readBranches fuel cx false false s
      let s ← closeParenthesis start s
      .ok ([.atomic (seqOf (branches cx.fold bs))], s)
    | .switched on off =>
      let inner := cx.adjust on off
      let (bs, s) ← readBranches fuel inner false false s
      let s ← closeParenthesis start s
      .ok ([.switched (seqOf (branches inner.fold bs))], s)
    | .ahead negated =>
      let (bs, s) ← readBranches fuel cx false false s
      let s ← closeParenthesis start s
      .ok ([.ahead negated (seqOf (branches cx.fold bs))], s)
    | .behind negated =>
      let (bs, t) ← readBranches fuel cx false false
        { s with lookbehind := some (s.lookbehind.getD s.groups.length) }
      let t ← closeParenthesis start { t with lookbehind := s.lookbehind }
      let p := seqOf (branches cx.fold bs)
      .ok ([.behind (t.widthOf p).1 negated p], t)
    | .ifGroup g =>
      let (yes, s) ← readSequence fuel cx false [] s
      let (more, s) ← s.takeIf '|'
      let (no, s) ← if more then readSequence fuel cx false [] s else .ok ([], s)
      if more && s.isNext '|' then s.flaw .thirdBranch 0
      else
        let s ← closeParenthesis start s
        .ok ([.ifGroup g (seqOf yes) (seqOf no)], s)
    | .done p => .ok ([p], s)
    | .nothing => .ok ([], s)
    | .global => .ok ([], s)
termination_by structural fuel
end

/-- The first condition on a group that the pattern does not have. -/
def missingCondition? (s : Source) : Option Fault :=
  (s.conditions.find? fun c => s.nextGroup ≤ c.1).map fun c => .at (.invalidGroup c.1) c.2

/-- Makes a pattern that was read ready for use, unless it has a defect. -/
def Source.finish (s : Source) (p : Pattern) : Except Fault Regex :=
  match p.defect? s.flags.template s.groupWidth with
  | some d => .error (.defect d)
  | none => .ok ⟨p, (s.widthOf p).1⟩

/-- Reads the text of a regular expression under switches. -/
def ofText (flags : Flags) (text : String) : Except Fault Regex := do
  let s ← Source.ofText flags text.toList
  let (bs, s) ← readBranches (4 * text.length + 8) flags true true s
  if s.flags.ascii && s.flags.unicode then .error .clashingAlphabets
  else if !s.rest.isEmpty then .error (.at .unbalancedParenthesis s.pos)
  else
    match missingCondition? s with
    | some f => .error f
    | none => s.finish (seqOf (branches s.flags.fold bs))

/-- Reads the text of a regular expression. A pattern that compiles names no character in words. -/
def compile (text : String) (ignoreCase : Bool) : Except Fault Regex :=
  ofText { ignoreCase } text

end Shellbox.Pattern
