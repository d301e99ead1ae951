/-!
# What can go wrong with a path

An operation on a path fails for one of six causes. The error keeps the path as it was given, which
may be no path at all.
-/

namespace Shellbox.Filesystem

/-- Why an operation on a path fails. -/
inductive PathError.Cause where
  | notFound
  | notDirectory
  | isDirectory
  | alreadyExists
  | notEmpty
  | notPermitted
deriving DecidableEq, Repr

/-- A failure and the path it is about, as it was given. -/
structure PathError where
  path : Option String
  cause : PathError.Cause
deriving DecidableEq, Repr

namespace PathError

def Cause.reason : Cause → String
  | .notFound => "No such file or directory"
  | .notDirectory => "Not a directory"
  | .isDirectory => "Is a directory"
  | .alreadyExists => "File exists"
  | .notEmpty => "Directory not empty"
  | .notPermitted => "Operation not permitted"

def shownPath (e : PathError) : String := e.path.getD "None"

/-- The wording of the cause of a failure. -/
def reason (e : PathError) : String := e.cause.reason

def message (e : PathError) : String := e.shownPath ++ ": " ++ e.reason

end PathError

end Shellbox.Filesystem
