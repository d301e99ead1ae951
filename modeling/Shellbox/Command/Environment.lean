import Shellbox.Calendar
import Shellbox.Command.Help
import Shellbox.Text.WordChar

/-!
# The session and its surroundings

The commands about the screen, the history, the user, the time, the system, aliases and the meaning
of names.
-/

namespace Shellbox.Command

open Text

def clear : Handler := .looking fun _ _ _ _ => .marked "" clearScreen

def historyLines (h : History) : List String :=
  (h.entries.zipIdx 1).map fun x => padLeft 5 (toString x.2) ++ "  " ++ x.1

def history : Handler := .acting fun _ s args =>
  if args.head? = some "-c" then ({ s with history := s.history.clear }, .nothing)
  else (s, .ok (joinLines (historyLines s.history)))

def whoami : Handler := .looking fun _ s _ _ => .ok s.settings.user

def date : Handler := .trying fun cx _ _ _ =>
  match Calendar.ofSeconds? cx.now with
  | .error f => .error (.date f)
  | .ok c => .ok (.ok c.fullText)

def systemName : String := "PortfolioOS"

def systemText : String := "PortfolioOS 1.5.0 portfolio-terminal x86_64 GNU/Linux"

def uname : Handler := .looking fun _ _ args _ =>
  .ok (if args.head? = some "-a" then systemText else systemName)

/-! ## Aliases -/

/-- A quote of either kind. -/
def isQuote (c : Char) : Bool := c = '\'' || c = '"'

def dropFirstQuote : List Char → List Char
  | [] => []
  | c :: r => if isQuote c then r else c :: r

/-- Drops a quote at the end, or before a line break at the end. -/
def dropLastQuote (cs : List Char) : List Char :=
  match cs.reverse with
  | '\n' :: c :: r => if isQuote c then ('\n' :: r).reverse else cs
  | c :: r => if isQuote c then r.reverse else cs
  | [] => cs

/-- The text of an alias without the quotes around it. -/
def unquoteAlias (cs : List Char) : List Char := dropLastQuote (dropFirstQuote cs)

/-- Reads the definition of an alias: a name of word characters, an equals sign and a text. -/
def readAlias? (s : String) : Option (String × String) :=
  let name := s.toList.takeWhile isWordChar
  match s.toList.dropWhile isWordChar with
  | '=' :: c :: r =>
    if name.isEmpty then none
    else some (String.ofList name, String.ofList (unquoteAlias (c :: r)))
  | _ => none

/-- An alias as it is listed. -/
def aliasRow (a : String × String) : String := "alias " ++ a.1 ++ "='" ++ a.2 ++ "'"

def aliasing : Handler := .acting fun _ s args =>
  if args.isEmpty then (s, .ok (joinLines (s.aliases.map aliasRow)))
  else
    match readAlias? (" ".intercalate args) with
    | none => (s, .error "alias: invalid syntax\nUsage: alias name='command'")
    | some (name, text) => ({ s with aliases := s.aliases.define name text }, .nothing)

/-! ## The meaning of names -/

/-- What a name means at the start of a line. -/
inductive Meaning where
  | aliased (text : String)
  | builtin
  | unknown
deriving DecidableEq, Repr

/-- What a name means, given the aliases and the commands. -/
def meaningOf (aliases : Aliases) (pages : List Page) (name : String) : Meaning :=
  match aliases.lookup name with
  | some text => .aliased text
  | none => if (pageOf? pages name).isSome then .builtin else .unknown

def Meaning.row (name : String) : Meaning → String
  | .aliased text => name ++ " is aliased to `" ++ text ++ "`"
  | .builtin => name ++ " is a shell builtin"
  | .unknown => name ++ ": not found"

def type : Handler := .looking fun cx s args _ =>
  if args.isEmpty then .error "type: missing operand\nUsage: type COMMAND"
  else .ok (joinLines (args.map fun n => (meaningOf s.aliases cx.pages n).row n))

end Shellbox.Command
