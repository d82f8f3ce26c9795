/-! # Why files cannot be used

The causes that a file system gives, with the words that it has for them.
-/

namespace RouteFleet

/-- Why a file system refuses. -/
inductive FileError where
  | notFound
  | notFolder
  | isFolder
  | nameTooLong
  | alreadyExists
  | notText
  | diskFull
deriving DecidableEq, Repr

/-- What is wrong, with the number under which the system knows it. -/
def FileError.message : FileError → String
  | notFound => "No such file or directory (os error 2)"
  | notFolder => "Not a directory (os error 20)"
  | isFolder => "Is a directory (os error 21)"
  | nameTooLong => "File name too long (os error 36)"
  | alreadyExists => "File exists (os error 17)"
  | notText => "stream did not contain valid UTF-8"
  | diskFull => "disk full"

end RouteFleet
