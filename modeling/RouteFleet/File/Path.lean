import RouteFleet.RouteId

/-! # Paths

A path is text with slashes between its names. It is *absolute* if it begins with a slash. A single
dot stands for the place itself and two dots for the place above.
-/

namespace RouteFleet.Path

open Text

/-- Whether the path begins at the top. -/
def isAbsolute (path : String) : Bool := beginsWith "/" path

/-- `path` as seen from `base`: itself if it is absolute, else the two with a slash between them
unless `base` is empty or ends with one. -/
def join (base path : String) : String :=
  if isAbsolute path then path
  else if base = "" || endsWith "/" base then base ++ path
  else base ++ "/" ++ path

/-- What stands between the slashes. -/
def names (path : String) : List String := (pieces '/' path.toList).map String.ofList

/-- What stands between the slashes, but for the empty name that a slash at the end makes. -/
def properNames (path : String) : List String :=
  if (names path).getLast? = some "" then (names path).dropLast else names path

/-- The names that move: empty ones and single dots do not. -/
def steps (path : String) : List String := (names path).filter fun n => n ≠ "" && n ≠ "."

/-- The last name, unless the path ends at its beginning or by going up. -/
def fileName? (path : String) : Option String :=
  match (steps path).getLast? with
  | some ".." => none
  | last => last

/-- A name without its ending: what stands before the last dot, if something does. -/
def stem (name : String) : String :=
  match splitLast '.' name with
  | some (before, _) => if before = "" then name else before
  | none => name

/-- The last name without its ending. -/
def fileStem? (path : String) : Option String := (fileName? path).map stem

end RouteFleet.Path

namespace RouteFleet

/-- The identity that a file is named for. -/
def RouteId.ofPath? (path : String) : Option RouteId :=
  match Path.fileStem? path with
  | some "" => none
  | some stem => some ⟨stem⟩
  | none => none

end RouteFleet
