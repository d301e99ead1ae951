import Shellbox.Command.Arguments
import Shellbox.Command.Catalog
import Shellbox.Number.Binary64

/-!
# Counting, sorting and collapsing lines

The commands that treat a text line by line without a pattern.
-/

namespace Shellbox.Command

open Filesystem Text Number

/-- The text piped in, or else the text of the first file; otherwise the outcome of the failure. -/
def inputText (name : String) (fs : Filesystem) (paths : List String) (piped : Option String) :
    Except Outcome String :=
  match piped, paths with
  | some text, _ => .ok text
  | none, [] => .error (.error (name ++ ": no input provided (use pipe or provide filename)"))
  | none, p :: _ => (fs.read (some p)).mapError fun e => .error (name ++ ": " ++ e.message)

def overInput (name : String) (fs : Filesystem) (paths : List String) (piped : Option String)
    (f : String → String) : Outcome :=
  match inputText name fs paths piped with
  | .error o => o
  | .ok text => .ok (f text)

/-! ## Counting -/

/-- The numbers of lines, words and characters. -/
structure Counts where
  lines : Nat
  words : Nat
  chars : Nat
deriving DecidableEq, Repr

namespace Counts

def ofText (s : String) : Counts := ⟨(Text.lines s).length, (Text.words s).length, s.length⟩

def add (a b : Counts) : Counts := ⟨a.lines + b.lines, a.words + b.words, a.chars + b.chars⟩

/-- The counts that flags ask for, or all, in columns. -/
def columns (a : Arguments) (c : Counts) : List String :=
  let chosen := [('l', c.lines), ('w', c.words), ('c', c.chars)].filter fun x => a.has x.1
  let shown := if chosen.isEmpty then [c.lines, c.words, c.chars] else chosen.map (·.2)
  shown.map fun n => padLeft 7 (toString n)

/-- The counts in columns, with a name behind them unless it is empty. -/
def row (a : Arguments) (name : String) (c : Counts) : String :=
  " ".intercalate (c.columns a ++ if name.isEmpty then [] else [name])

end Counts

/-- Counts each file, and all of them together if there are several. -/
def countFiles (a : Arguments) (fs : Filesystem) : Outcome :=
  let counted := a.operands.map fun p => (p, (fs.read (some p)).map Counts.ofText)
  let rows := counted.map fun x => match x.2 with
    | .ok c => c.row a x.1
    | .error e => "wc: " ++ e.message
  let total := (counted.filterMap (·.2.toOption)).foldl Counts.add ⟨0, 0, 0⟩
  let totals := if a.operands.length > 1 then [total.row a "total"] else []
  let output := joinLines (rows ++ totals)
  if counted.all fun x => x.2.isOk then .ok output else .error output

/-- Counts lines, words and characters. -/
def wc : Handler := .looking fun _ s args piped =>
  let a := Arguments.ofWords args
  match piped with
  | some text => .ok ((Counts.ofText text).row a "")
  | none =>
    if a.operands.isEmpty then .error "wc: no files specified (use pipe or provide filename)"
    else countFiles a s.fs

/-! ## Sorting -/

/-- Sorts by an order, or by its converse; neither changes the order of equals. -/
def sortBy {α : Type} (le : α → α → Bool) (reversed : Bool) (xs : List α) : List α :=
  if reversed then xs.mergeSort fun a b => le b a else xs.mergeSort le

def sortByText (reversed : Bool) (ls : List String) : List String :=
  sortBy (fun a b => a ≤ b) reversed ls

/-- A line with the number at its front. -/
def withNumber (l : String) : Except Fault (Binary64 × String) :=
  match leadingNumber l with
  | .error text => .error (.fraction text)
  | .ok n => .ok (n, l)

def sortByNumber (reversed : Bool) (ls : List String) : Except Fault (List String) :=
  (ls.mapM withNumber).map fun xs => (sortBy (fun a b => a.1.le b.1) reversed xs).map (·.2)

def sort : Handler := .trying fun _ s args piped =>
  let a := Arguments.ofWords args
  match inputText "sort" s.fs a.operands piped with
  | .error o => .ok o
  | .ok text =>
    let sorted :=
      if a.has 'n' then sortByNumber (a.has 'r') (lines text)
      else .ok (sortByText (a.has 'r') (lines text))
    sorted.map fun ls => .ok (joinLines ls)

/-! ## Collapsing -/

def addToRuns (l : String) : List (Nat × String) → List (Nat × String)
  | [] => [(1, l)]
  | (n, m) :: rest => if l = m then (n + 1, m) :: rest else (1, l) :: (n, m) :: rest

/-- The runs of equal neighbours with their lengths. -/
def runs (ls : List String) : List (Nat × String) := ls.foldr addToRuns []

/-- A run as it is shown. -/
def runRow (counted : Bool) (x : Nat × String) : String :=
  if counted then padLeft 7 (toString x.1) ++ " " ++ x.2 else x.2

/-- Shows each run of equal lines once, or only those of two lines and more. -/
def collapse (counted repeatedOnly : Bool) (ls : List String) : List String :=
  ((runs ls).filter fun x => !repeatedOnly || 2 ≤ x.1).map (runRow counted)

def uniq : Handler := .looking fun _ s args piped =>
  let a := Arguments.ofWords args
  overInput "uniq" s.fs a.operands piped fun text =>
    joinLines (collapse (a.has 'c') (a.has 'd') (lines text))

end Shellbox.Command
