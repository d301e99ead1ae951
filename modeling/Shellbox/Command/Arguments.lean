/-!
# Arguments

Ways to read the words behind a command: flags of single letters apart from operands, and options
that carry a value.
-/

namespace Shellbox.Command

/-- Flag letters and operands. -/
structure Arguments where
  flags : List Char
  operands : List String
deriving DecidableEq, Repr

/-- The letters of a word of flags; a lone dash is none, and neither is a word with two dashes. -/
def flagLetters? (word : String) : Option (List Char) :=
  match word.toList with
  | '-' :: '-' :: _ => some []
  | '-' :: c :: r => some (c :: r)
  | _ => none

namespace Arguments

/-- Separates flag letters from operands; a word that begins with two dashes is dropped. -/
def ofWords : List String → Arguments
  | [] => ⟨[], []⟩
  | w :: r =>
    let rest := ofWords r
    match flagLetters? w with
    | some ls => { rest with flags := ls ++ rest.flags }
    | none => { rest with operands := w :: rest.operands }

/-- The flag is given. -/
def has (a : Arguments) (flag : Char) : Bool := a.flags.contains flag

/-- The flag letters in order, each once. -/
def letters (a : Arguments) : List Char := (a.flags.mergeSort (· ≤ ·)).eraseDups

end Arguments

/-- The value joined to an option, as in a dash, the letter and the value in one word. -/
def joinedValue? (option : String) (word : String) : Option String :=
  if option.toList.isPrefixOf word.toList && word.length > 2 then
    some (String.ofList (word.toList.drop 2))
  else none

/-- Takes the values of an option out of words; the last value counts. -/
def takeOptionFrom (option : String) (found : Option String) :
    List String → Option String × List String
  | [] => (found, [])
  | w :: r =>
    if w = option then
      match r with
      | [] => (found, [])
      | v :: r => takeOptionFrom option (some v) r
    else
      match joinedValue? option w with
      | some v => takeOptionFrom option (some v) r
      | none =>
        let (v, rest) := takeOptionFrom option found r
        (v, w :: rest)

/-- The last value of an option of one letter, and the words that do not belong to it. -/
def takeOption (flag : String) (words : List String) : Option String × List String :=
  takeOptionFrom ("-" ++ flag) none words

end Shellbox.Command
