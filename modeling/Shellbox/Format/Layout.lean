import Shellbox.Format.Fault
import Shellbox.Text.Digit

/-!
# Layouts

A layout says how a text stands in a column: at which side, what fills the rest, how wide the
column is, and how many characters of the text are shown. It is written as a fill character and a
side, a width, and a precision behind a full stop, each of which may be missing. Signs, groupings
and kinds that are meant for numbers can be written too, and are refused.
-/

namespace Shellbox.Format

open Text

/-- Where a text stands in its column. -/
inductive Side where
  | left
  | right
  | centre
  /-- The filling stands between a sign and its number, which a text does not have. -/
  | inner
deriving DecidableEq, Repr

def Side.ofChar? : Char → Option Side
  | '<' => some .left
  | '>' => some .right
  | '^' => some .centre
  | '=' => some .inner
  | _ => none

/-- A layout as it is written. -/
structure Layout where
  fill : Char := ' '
  side : Side := .left
  sign : Option Char := none
  zeroSign : Bool := false
  alternate : Bool := false
  width : Option Nat := none
  grouping : Option Grouping := none
  precision : Option Nat := none
  kind : Char := 's'
deriving DecidableEq, Repr

/-! ## Reading -/

/-- The greatest number in a format. -/
def maxNumber : Nat := 9223372036854775807

/-- Reads the decimal digits, of any script, that go on with the number `n`. -/
def takeNumber (n : Nat) : List Char → Except Fault (Nat × List Char)
  | [] => .ok (n, [])
  | c :: r =>
    match decimalValue? c with
    | none => .ok (n, c :: r)
    | some d => if n * 10 + d ≤ maxNumber then takeNumber (n * 10 + d) r else .error .hugeNumber

/-- Reads a number, if there is one. -/
def takeNumber? (cs : List Char) : Except Fault (Option Nat × List Char) :=
  match takeNumber 0 cs with
  | .error f => .error f
  | .ok (n, rest) => .ok (if rest.length = cs.length then none else some n, rest)

def Layout.takeSide (l : Layout) : List Char → Layout × Bool × List Char
  | c :: d :: r =>
    match Side.ofChar? d with
    | some s => ({ l with fill := c, side := s }, true, r)
    | none =>
      match Side.ofChar? c with
      | some s => ({ l with side := s }, false, d :: r)
      | none => (l, false, c :: d :: r)
  | [c] =>
    match Side.ofChar? c with
    | some s => ({ l with side := s }, false, [])
    | none => (l, false, [c])
  | [] => (l, false, [])

/-- Reads the marks that are meant for numbers and stand before the width. -/
def Layout.takeMarks (l : Layout) (cs : List Char) : Layout × List Char :=
  let (l, cs) := match cs with
    | '+' :: r => ({ l with sign := some '+' }, r)
    | '-' :: r => ({ l with sign := some '-' }, r)
    | ' ' :: r => ({ l with sign := some ' ' }, r)
    | r => (l, r)
  let (l, cs) := match cs with
    | 'z' :: r => ({ l with zeroSign := true }, r)
    | r => (l, r)
  match cs with
  | '#' :: r => ({ l with alternate := true }, r)
  | r => (l, r)

/-- Reads the width; a zero in front of it is the fill character, unless there is one already. -/
def Layout.takeWidth (l : Layout) (filled : Bool) (cs : List Char) :
    Except Fault (Layout × List Char) :=
  let (l, cs) := match filled, cs with
    | false, '0' :: r => ({ l with fill := '0' }, r)
    | _, r => (l, r)
  match takeNumber? cs with
  | .error f => .error f
  | .ok (w, r) => .ok ({ l with width := w }, r)

def Layout.takeGrouping (l : Layout) : List Char → Except Fault (Layout × List Char)
  | ',' :: '_' :: _ => .error .mixedGroupings
  | '_' :: ',' :: _ => .error .mixedGroupings
  | ',' :: r => .ok ({ l with grouping := some .comma }, r)
  | '_' :: r => .ok ({ l with grouping := some .underscore }, r)
  | r => .ok (l, r)

def Layout.takePrecision (l : Layout) : List Char → Except Fault (Layout × List Char)
  | '.' :: r =>
    match takeNumber? r with
    | .error f => .error f
    | .ok (none, _) => .error .missingPrecision
    | .ok (some p, r) => .ok ({ l with precision := some p }, r)
  | r => .ok (l, r)

/-- A grouping may stand with this kind; the missing kind stands for any number. -/
def Grouping.fits : Grouping → Char → Bool
  | .comma, k => "defgEG%F\x00".toList.contains k
  | .underscore, k => "defgEG%FboxX\x00".toList.contains k

/-- The layout, unless its grouping does not fit its kind. -/
def Layout.checked (l : Layout) : Except Fault Layout :=
  match l.grouping with
  | some g => if g.fits l.kind then .ok l else .error (.grouped g l.kind)
  | none => .ok l

/-- Reads the kind, which is the last character. -/
def Layout.takeKind (l : Layout) (whole : String) : List Char → Except Fault Layout
  | [] => l.checked
  | [k] => { l with kind := k }.checked
  | _ => .error (.malformedLayout whole)

def Layout.read (text : String) : Except Fault Layout :=
  let (l, filled, r) := ({} : Layout).takeSide text.toList
  let (l, r) := l.takeMarks r
  match l.takeWidth filled r with
  | .error f => .error f
  | .ok (l, r) =>
    match l.takeGrouping r with
    | .error f => .error f
    | .ok (l, r) =>
      match l.takePrecision r with
      | .error f => .error f
      | .ok (l, r) => l.takeKind text r

/-! ## Laying out -/

def Layout.unfit? (l : Layout) : Option Fault :=
  if l.kind ≠ 's' then some (.unknownKind l.kind)
  else if l.sign = some ' ' then some .blankSign
  else if l.sign.isSome then some .sign
  else if l.zeroSign then some .zeroSign
  else if l.alternate then some .alternate
  else if l.side = .inner then some .innerPadding
  else none

/-- The greatest width of a column that fits into memory. -/
def maxWidth : Nat := 0xffffffff

/-- Lays a text out in a column as wide as the layout asks for, or as the text needs. -/
def Layout.place (l : Layout) (s : String) : String :=
  let shown := match l.precision with
    | some p => s.toList.take p
    | none => s.toList
  let free := l.width.getD 0 - shown.length
  let before := match l.side with
    | .right => free
    | .centre => free / 2
    | _ => 0
  String.ofList (List.replicate before l.fill ++ shown ++ List.replicate (free - before) l.fill)

/-- Lays a text out as a written layout says; an empty one leaves the text as it is. -/
def layOut (layout s : String) : Except Fault String :=
  if layout.isEmpty then .ok s
  else
    match Layout.read layout with
    | .error f => .error f
    | .ok l =>
      match l.unfit? with
      | some f => .error f
      | none => if l.width.getD 0 ≤ maxWidth then .ok (l.place s) else .error .tooWide

end Shellbox.Format
