import Shellbox.Line.Token

/-!
# Stages and redirections

A pipeline is cut at every bar outside quotes; its stages keep their quotes and escapes, because
each is read again on its own. A redirection splits the tokens of a line at the first redirect
operator.
-/

namespace Shellbox.Line

open Shellbox.Text

/-- The texts between the bars of a line, trimmed. -/
def stages (line : String) : List String :=
  ((labels line).splitOnP (·.2 = .pipe)).map fun cs =>
    String.ofList (trimChars (cs.map (·.1)))

/-- A command and the file that takes its output. -/
structure Redirection where
  /-- The words of the command. -/
  command : List String
  /-- The path of the file. -/
  target : String
  /-- Whether the output goes behind what the file holds. -/
  append : Bool
deriving DecidableEq, Repr

/--
Splits tokens at the first redirect operator. There is no redirection without a command before it,
or with anything but words after it.
-/
def Redirection.ofTokens? (ts : List Token) : Option Redirection :=
  let command := ts.takeWhile (!·.isRedirect)
  match ts.dropWhile (!·.isRedirect) with
  | [] => none
  | op :: rest =>
    if command.isEmpty || rest.isEmpty || rest.any (·.isOperator) then none
    else some ⟨command.map (·.text), " ".intercalate (rest.map (·.text)), op = .operator .append⟩

/-- The redirection that a line asks for. -/
def redirection? (line : String) : Option Redirection := Redirection.ofTokens? (scan line)

end Shellbox.Line
