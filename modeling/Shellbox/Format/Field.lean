import Shellbox.Format.Layout
import Shellbox.Text.Quoted

/-!
# Fields

A field stands in braces. It names a value, may go on to a part of the value, may ask for the value
in quotes, and may say how it is laid out.
-/

namespace Shellbox.Format

open Text

/-- What stands between two braces. -/
structure Field where
  /-- The name of the value and the steps to a part of it. -/
  path : List Char
  /-- How the value is shown. -/
  conversion : Option Char := none
  layout : List Char := []
  /-- The layout has fields of its own. -/
  nested : Bool := false
deriving DecidableEq, Repr

/-! ## The value -/

/-- A step from a value to a part of it. -/
inductive Step where
  | attribute (name : List Char)
  | item (name : List Char)
  | fault (f : Fault)
deriving DecidableEq, Repr

/-- The step that is being read, last character first. -/
inductive OpenStep where
  | none
  | attribute (name : List Char)
  | item (name : List Char)
deriving DecidableEq, Repr

/-- Reads the steps behind the name of a value; the last one may be a fault. -/
def steps : OpenStep → List Char → List Step
  | .none, [] => []
  | .none, '.' :: r => steps (.attribute []) r
  | .none, '[' :: r => steps (.item []) r
  | .none, _ :: _ => [.fault .strayBehindBracket]
  | .attribute n, [] => [.attribute n.reverse]
  | .attribute n, '.' :: r => .attribute n.reverse :: steps (.attribute []) r
  | .attribute n, '[' :: r => .attribute n.reverse :: steps (.item []) r
  | .attribute n, c :: r => steps (.attribute (c :: n)) r
  | .item _, [] => [.fault .openBracket]
  | .item n, ']' :: r => .item n.reverse :: steps .none r
  | .item n, c :: r => steps (.item (c :: n)) r

def index? (name : List Char) : Except Fault (Option Nat) :=
  match takeNumber 0 name with
  | .error f => .error f
  | .ok (n, []) => .ok (if name.isEmpty then none else some n)
  | .ok (_, _ :: _) => .ok none

/-- Takes one step. A text has its characters as items and no attributes. -/
def Step.take (value : String) : Step → Except Fault String
  | .fault f => .error f
  | .attribute [] => .error .emptyAttribute
  | .attribute n => .error (.unknownAttribute (String.ofList n))
  | .item n =>
    match index? n with
    | .error f => .error f
    | .ok none => .error (if n.isEmpty then .emptyAttribute else .badIndex)
    | .ok (some i) =>
      match value.toList[i]? with
      | some c => .ok (String.ofList [c])
      | none => .error .indexOutOfRange

def takeSteps (value : String) : List Step → Except Fault String
  | [] => .ok value
  | s :: r =>
    match s.take value with
    | .error f => .error f
    | .ok v => takeSteps v r

/-- The value of a name; values have names only, and no numbers. -/
def namedValue (values : List (String × String)) (name : List Char) : Except Fault String :=
  match index? name with
  | .error f => .error f
  | .ok (some i) => .error (.positional i)
  | .ok none =>
    if name.isEmpty then .error (.positional 0)
    else
      match values.lookup (String.ofList name) with
      | some v => .ok v
      | none => .error (.unknownName (String.ofList name))

/-- A character does not end the name of a value. -/
def staysInName (c : Char) : Bool := c != '.' && c != '['

def pathValue (values : List (String × String)) (path : List Char) : Except Fault String :=
  match namedValue values (path.takeWhile staysInName) with
  | .error f => .error f
  | .ok v => takeSteps v (steps .none (path.dropWhile staysInName))

/-! ## How the value is shown -/

def convert (value : String) : Option Char → Except Fault String
  | none => .ok value
  | some 'r' => .ok (quoted value)
  | some 's' => .ok value
  | some 'a' => .ok (quotedPlain value)
  | some c => if c.toNat = 0 then .ok value else .error (.unknownConversion c)

end Shellbox.Format
