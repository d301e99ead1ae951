import Shellbox.Format.Field

/-!
# Filling in formats

A format is a text with fields in braces; a double brace stands for a brace. Filling it in puts the
value of each field in its place. The layout of a field is itself a format, whose fields may have
layouts, but no formats in them.
-/

namespace Shellbox.Format

/-- A piece of a format. -/
inductive Piece where
  | char (c : Char)
  | field (f : Field)
  | fault (f : Fault)
deriving DecidableEq, Repr

/-- Where in a format its reader is; what has been read of a part stands last character first. -/
inductive Place where
  | text
  | path (read : List Char)
  /-- Inside square brackets of a path. -/
  | brackets (read : List Char)
  | conversion (path : List Char)
  | behindConversion (path : List Char) (c : Char)
  /-- Inside a layout, `depth` braces deep. -/
  | layout (path : List Char) (c : Option Char) (read : List Char) (nested : Bool) (depth : Nat)
deriving DecidableEq, Repr

/-- The pieces of a format; the last one may be a fault. -/
def pieces : Place → List Char → List Piece
  | .text, [] => []
  | .text, '\x7b' :: r => pieces (.path []) r
  | .text, ['\x7d'] => [.fault .loneClosing]
  | .text, '\x7d' :: c :: r =>
    if c = '\x7d' then .char '\x7d' :: pieces .text r else [.fault .loneClosing]
  | .text, c :: r => .char c :: pieces .text r
  | .path [], [] => [.fault .loneOpening]
  | .path [], '\x7b' :: r => .char '\x7b' :: pieces .text r
  | .path _, [] => [.fault .unterminated]
  | .path n, c :: r =>
    if c = '\x7b' then [.fault .nestedOpening]
    else if c = '\x7d' then .field ⟨n.reverse, none, [], false⟩ :: pieces .text r
    else if c = '!' then pieces (.conversion n.reverse) r
    else if c = ':' then pieces (.layout n.reverse none [] false 0) r
    else if c = '[' then pieces (.brackets (c :: n)) r
    else pieces (.path (c :: n)) r
  | .brackets _, [] => [.fault .unterminated]
  | .brackets n, c :: r =>
    if c = ']' then pieces (.path (c :: n)) r else pieces (.brackets (c :: n)) r
  | .conversion _, [] => [.fault .missingConversion]
  | .conversion p, c :: r => pieces (.behindConversion p c) r
  | .behindConversion _ _, [] => [.fault .openLayout]
  | .behindConversion p v, c :: r =>
    if c = '\x7d' then .field ⟨p, some v, [], false⟩ :: pieces .text r
    else if c = ':' then pieces (.layout p (some v) [] false 0) r
    else [.fault .longConversion]
  | .layout _ _ _ _ _, [] => [.fault .openLayout]
  | .layout p v l nested depth, c :: r =>
    if c = '\x7b' then pieces (.layout p v (c :: l) true (depth + 1)) r
    else if c = '\x7d' then
      match depth with
      | 0 => .field ⟨p, v, l.reverse, nested⟩ :: pieces .text r
      | depth + 1 => pieces (.layout p v (c :: l) nested depth) r
    else pieces (.layout p v (c :: l) nested depth) r

/-- The text of a field; `expand` fills in the fields in its layout. -/
def Field.text (expand : List Char → Except Fault String) (values : List (String × String))
    (f : Field) : Except Fault String :=
  match pathValue values f.path with
  | .error e => .error e
  | .ok v =>
    match convert v f.conversion with
    | .error e => .error e
    | .ok v =>
      match if f.nested then expand f.layout else .ok (String.ofList f.layout) with
      | .error e => .error e
      | .ok layout => layOut layout v

def fillPieces (expand : List Char → Except Fault String) (values : List (String × String))
    (done : String) : List Piece → Except Fault String
  | [] => .ok done
  | .char c :: r => fillPieces expand values (done.push c) r
  | .fault f :: _ => .error f
  | .field f :: r =>
    match f.text expand values with
    | .error e => .error e
    | .ok s => fillPieces expand values (done ++ s) r

/-- Fills a format in whose fields may be nested to a depth. -/
def fillWithin (values : List (String × String)) : Nat → List Char → Except Fault String
  | 0, _ => .error .tooNested
  | depth + 1, cs => fillPieces (fillWithin values depth) values "" (pieces .text cs)

def maxDepth : Nat := 2

def fill (values : List (String × String)) (format : String) : Except Fault String :=
  fillWithin values maxDepth format.toList

end Shellbox.Format
