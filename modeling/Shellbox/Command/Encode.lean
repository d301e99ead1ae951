import Shellbox.Codec.Base64
import Shellbox.Codec.Bytes
import Shellbox.Codec.Hex
import Shellbox.Command.Catalog
import Shellbox.Digest.Md5
import Shellbox.Digest.Sha256
import Shellbox.Pattern.Compile
import Shellbox.Pattern.Matcher

/-!
# Encodings and digests

The commands that write texts in other forms and back. They take the text piped in unless it is
empty, and otherwise a file or the operand itself.
-/

namespace Shellbox.Command

open Text Codec Number

/-- The text piped in, unless it is empty. -/
def pipedText? (piped : Option String) : Option String :=
  piped.bind fun t => if t.isEmpty then none else some t

/-- The text of the file of this name and its name, or else the operand itself and a dash. -/
def fileOrOperand (fs : Filesystem) (operand : String) : String × String :=
  match fs.node? (some operand) with
  | some (.file _ text) => (text, operand)
  | _ => (operand, "-")

def missingOperand (name hint : String) : Outcome :=
  .error (name ++ ": missing operand\nTry: " ++ name ++ " " ++ hint ++
    " or echo \"text\" | " ++ name)

/-- The words that are no options, and whether one of the options is given. -/
def splitOptions (options args : List String) : Bool × List String :=
  (args.any options.contains, args.filter (!options.contains ·))

/-- The text of a file, or the outcome that there is none. -/
def requireFile (name : String) (fs : Filesystem) (operand : String) : Except Outcome String :=
  (fs.read (some operand)).mapError fun _ =>
    .error (name ++ ": " ++ operand ++ ": No such file or directory")

/-- The text piped in, or else that of the file of the first operand. -/
def pipedOrFile (name : String) (fs : Filesystem) (operands : List String)
    (piped : Option String) : Except Outcome String :=
  match pipedText? piped, operands with
  | some text, _ => .ok text
  | none, f :: _ => requireFile name fs f
  | none, [] => .error (missingOperand name "<file>")

/-! ## Base64 -/

/-- Reads base64, blanks aside. -/
def decodeBase64 (text : String) : Outcome :=
  match Base64.decode (text.toList.filter (!isBlank ·)) with
  | .error f => .error ("base64: invalid input: " ++ f.message)
  | .ok bs => .ok (textOf bs)

def encodeBase64 (text : String) : Outcome := .ok (String.ofList (Base64.encode (bytesOf text)))

def base64 : Handler := .looking fun _ s args piped =>
  let (decoding, operands) := splitOptions ["-d", "--decode"] args
  let convert := if decoding then decodeBase64 else encodeBase64
  match pipedText? piped, operands with
  | some text, _ => convert (trim text)
  | none, o :: _ => convert (fileOrOperand s.fs o).1
  | none, [] => missingOperand "base64" "<text>"

/-! ## Hexadecimal dumps -/

/-- Reads hexadecimal digits, blanks and colons aside. -/
def decodeHex (text : String) : Outcome :=
  match Hex.parse (text.toList.filter fun c => !isBlank c && c != ':') with
  | .error n => .error ("xxd: invalid hex input: non-hexadecimal number found in fromhex() arg " ++
      "at position " ++ toString n)
  | .ok bs => .ok (textOf bs)

def xxd : Handler := .looking fun _ s args piped =>
  let (reverting, operands) := splitOptions ["-r", "--revert"] args
  match pipedOrFile "xxd" s.fs operands piped with
  | .error o => o
  | .ok text => if reverting then decodeHex text else .ok (Hex.dump (bytesOf text))

/-! ## Printable runs -/

/-- The pattern of a run of at least `least` plain characters. -/
def plainPattern (least : Nat) : String := "[\\x20-\\x7e]\x7b" ++ toString least ++ ",\x7d"

/-- All runs of at least `least` plain characters, from the left. There is no pattern for a number
that is too large. -/
def plainRuns (least : Nat) (text : String) : List String :=
  match Pattern.compile (plainPattern least) false with
  | .error _ => []
  | .ok r => r.findAll text

/-- Reads the arguments of `strings`: the least length and the operands. -/
def readLeast (least : Nat) : List String → Except Fault (Option (Nat × List String))
  | [] => .ok (some (least, []))
  | "-n" :: v :: r =>
    if !isDigits v then .ok none
    else
      match readNumeral v with
      | .error f => .error (.numeral f)
      | .ok n => if n < 1 then .ok none else readLeast n r
  | w :: r => (readLeast least r).map fun x => x.map fun (n, ws) => (n, w :: ws)

def strings : Handler := .trying fun _ s args piped =>
  match readLeast 4 args with
  | .error f => .error f
  | .ok none => .ok (.error "strings: invalid minimum string length")
  | .ok (some (least, operands)) =>
    match pipedOrFile "strings" s.fs operands piped with
    | .error o => .ok o
    | .ok text =>
      if least ≥ Pattern.unbounded then .error .repetitionTooLarge
      else .ok (.ok (joinLines (plainRuns least text)))

/-! ## Digests -/

/-- What a digest is made of, with the label that is shown behind it. -/
def digestSource? (fs : Filesystem) (args : List String) (piped : Option String) :
    Option (String × String) :=
  match pipedText? piped, args with
  | some text, _ => some (text, "-")
  | none, o :: _ => some (fileOrOperand fs o)
  | none, [] => none

def digestRow (digest : List UInt8 → List UInt8) (x : String × String) : Outcome :=
  .ok (Digest.hexText (digest (bytesOf x.1)) ++ "  " ++ x.2)

def md5sum : Handler := .looking fun _ s args piped =>
  match digestSource? s.fs args piped with
  | none => missingOperand "md5sum" "<file>"
  | some x => digestRow Digest.Md5.digest x

/-- Shows the SHA-256 digest of a text, once it is asked for. -/
def sha256sum : Handler := .deferring fun _ s args piped =>
  match digestSource? s.fs args piped with
  | none => .ready (missingOperand "sha256sum" "<file>")
  | some x => .pending (.ok (digestRow Digest.Sha256.digest x))

/-! ## Letters and lines turned around -/

def turnLetter (c : Char) : Char :=
  if 'a' ≤ c && c ≤ 'z' then Char.ofNat (97 + (c.toNat - 97 + 13) % 26)
  else if 'A' ≤ c && c ≤ 'Z' then Char.ofNat (65 + (c.toNat - 65 + 13) % 26)
  else c

def rot13 : Handler := .looking fun _ _ args piped =>
  match pipedText? piped, args with
  | none, [] => missingOperand "rot13" "<text>"
  | some text, _ => .ok (text.map turnLetter)
  | none, args => .ok ((" ".intercalate args).map turnLetter)

/-- The characters of each line in reverse order. -/
def reverseLines (text : String) : String :=
  joinLines ((pieces '\n' text).map fun l => String.ofList l.toList.reverse)

def rev : Handler := .looking fun _ s args piped =>
  match pipedText? piped, args with
  | some text, _ => .ok (reverseLines text)
  | none, o :: _ => .ok (reverseLines (fileOrOperand s.fs o).1)
  | none, [] => missingOperand "rev" "<text>"

end Shellbox.Command
