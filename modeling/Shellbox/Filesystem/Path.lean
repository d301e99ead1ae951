import Shellbox.Text.Blank
import Shellbox.Text.Lines

/-!
# Paths

A path is a text. Resolving it makes it absolute and normal: the tilde stands for the home
directory, a relative path starts at the working directory, single dots vanish and double dots go
up, but never above the root.
-/

namespace Shellbox.Filesystem.Path

open Shellbox.Text

/-- The absolute path with the given parts. -/
def render (parts : List String) : String := "/" ++ "/".intercalate parts

/-- The parts of a path between its slashes, without the empty ones. -/
def segments (path : String) : List String := (pieces '/' path).filter (· ≠ "")

/-- Takes one part of a path into account; the parts so far are held last first. -/
def push (stack : List String) (part : String) : List String :=
  if part = "" ∨ part = "." then stack
  else if part = ".." then stack.tail
  else part :: stack

/-- Removes empty parts and single dots, and lets double dots go up. -/
def normalize (parts : List String) : List String := (parts.foldl push []).reverse

/-- Replaces a tilde that stands alone or before a slash by the home directory. -/
def expandHome (home path : String) : String :=
  match path.toList with
  | ['~'] => home
  | '~' :: '/' :: r => home ++ String.ofList ('/' :: r)
  | _ => path

/-- Puts the working directory in front of a relative path. -/
def anchor (cwd path : String) : String :=
  match path.toList with
  | '/' :: _ => path
  | _ => cwd ++ "/" ++ path

/-- The absolute path that a text names; a blank or absent one names the working directory. -/
def resolve (home cwd : String) : Option String → String
  | none => cwd
  | some path =>
    if isAllBlank path then cwd
    else render (normalize (pieces '/' (anchor cwd (expandHome home path))))

def IsName (part : String) : Prop :=
  part ≠ "" ∧ part ≠ "." ∧ part ≠ ".." ∧ '/' ∉ part.toList

/-- An absolute path written with proper names and single slashes. -/
def IsNormal (path : String) : Prop := ∃ parts, (∀ p ∈ parts, IsName p) ∧ path = render parts

def join (directory name : String) : String :=
  if directory = "/" then "/" ++ name else directory ++ "/" ++ name

end Shellbox.Filesystem.Path
