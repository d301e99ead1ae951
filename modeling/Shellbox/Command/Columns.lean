import Shellbox.Command.FieldList
import Shellbox.Command.Lines

/-!
# Columns and characters

The commands that pick columns out of lines and that replace characters one by one.
-/

namespace Shellbox.Command

open Text

/-! ## Columns -/

/--
Cuts characters at every occurrence of a delimiter from the left; `piece` holds the piece under way,
last character first, and `skip` the characters of an occurrence still to be passed over.
-/
def cutFrom (delimiter : List Char) (piece : List Char) (done : List (List Char)) :
    Nat → List Char → List (List Char)
  | _, [] => (piece.reverse :: done).reverse
  | skip + 1, _ :: r => cutFrom delimiter piece done skip r
  | 0, c :: r =>
    if delimiter.isPrefixOf (c :: r) then
      cutFrom delimiter [] (piece.reverse :: done) (delimiter.length - 1) r
    else cutFrom delimiter (c :: piece) done 0 r

/-- The columns of a line between the occurrences of a delimiter. -/
def columnsOf (delimiter line : String) : List String :=
  (cutFrom delimiter.toList [] [] 0 line.toList).map String.ofList

/-- The columns of a line at some positions; those past its end are passed over. -/
def pickColumns (delimiter : String) (fields : List Nat) (line : String) : String :=
  let columns := (columnsOf delimiter line).toArray
  delimiter.intercalate (fields.filterMap fun f => columns[f - 1]?)

def cut : Handler := .looking fun _ s args piped =>
  let (spec, rest) := takeOption "f" args
  let (delimiter, rest) := takeOption "d" rest
  let delimiter := match delimiter with
    | some d => if d.isEmpty then "\t" else d
    | none => "\t"
  let spec := spec.getD ""
  if spec.isEmpty then .error "cut: you must specify a list of fields with -f"
  else
    match readFields spec with
    | .error f => .error ("cut: " ++ f.message)
    | .ok fields =>
      overInput "cut" s.fs (Arguments.ofWords rest).operands piped fun text =>
        joinLines ((lines text).map (pickColumns delimiter fields))

/-! ## Characters -/

/-- What a character is replaced by; of several places in the first set the last counts. -/
def substituteChar (source target : List Char) (c : Char) : Char :=
  ((source.zip target).reverse.lookup c).getD c

/-- Replaces the characters of one set by those at the same places of another. -/
def substitute (source target text : String) : String :=
  String.ofList (text.toList.map (substituteChar source.toList target.toList))

def delete (set text : String) : String :=
  String.ofList (text.toList.filter (!set.toList.contains ·))

def tr : Handler := .looking fun _ _ args piped =>
  match piped with
  | none => .error "tr: requires piped input"
  | some text =>
    match args with
    | "-d" :: set :: _ => .ok (delete set text)
    | ["-d"] => .error "tr: missing operand"
    | source :: target :: _ => .ok (substitute source target text)
    | _ => .error "tr: missing operand"

end Shellbox.Command
