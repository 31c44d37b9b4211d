/-!
# Reading files

A run asks for the octets of a file by its path and may be refused.
-/

namespace Kiln

/-- Why a file could not be read. -/
inductive ReadFailure where
  | missing
  | isDirectory
  | notDirectory
  | nameTooLong
  | nulInName
  | other (reason : String)
  deriving DecidableEq

/-- The wording of a failure. -/
def ReadFailure.message : ReadFailure → String
  | .missing => "No such file or directory (os error 2)"
  | .isDirectory => "Is a directory (os error 21)"
  | .notDirectory => "Not a directory (os error 20)"
  | .nameTooLong => "File name too long (os error 36)"
  | .nulInName => "file name contained an unexpected NUL byte"
  | .other reason => reason

/-- The octets that one name within a directory may have. -/
def maxNameSize : Nat := 255

/-- The octets that a whole path may have. -/
def maxPathSize : Nat := 4095

/-- What refuses a path whatever files there are. -/
def refusalOfPath? (path : String) : Option ReadFailure :=
  if path.toList.contains '\x00' then some .nulInName
  else if path = "" then some .missing
  else if maxPathSize < path.utf8ByteSize then some .nameTooLong
  else none

/-- The files that a run can read: what asking for a path gives. -/
abbrev Files := String → Except ReadFailure (List UInt8)

end Kiln
