import RouteFleet.File.System
import RouteFleet.Glob.Pattern
import RouteFleet.Store.Error

/-! # Files that a pattern speaks of

A pattern is laid under a root, which stands for itself whatever characters are in it. What is found
are files; they come in the order of their paths, name by name.
-/

namespace RouteFleet

namespace Path

/-- How a path's names are ordered: the top first, then the place itself, what lies above, and other
names. A single dot counts only at the beginning. -/
def sortKey (path : String) : List (Nat × String) :=
  let rank (name : String) : Nat × String := if name = ".." then (2, "") else (3, name)
  let inner := (steps path).map rank
  if isAbsolute path then (0, "") :: inner
  else if (names path).head? = some "." then (1, "") :: inner
  else inner

/-- Whether a path is no longer than the place itself. -/
def isHere (path : String) : Bool := sortKey path = [(1, "")]

/-- Whether a list of ranked names does not come after another. -/
def keyLe : List (Nat × String) → List (Nat × String) → Bool
  | [], _ => true
  | _ :: _, [] => false
  | (m, a) :: rest, (n, b) :: more =>
    if m = n && a = b then keyLe rest more else m < n || (m = n && Text.Before a b)

/-- `name` as seen from `path`; the place itself is not named. -/
def child (path name : String) : String := if isHere path then name else join path name

/-- A path as it is walked: from the top or from the place itself, one name after the other. -/
def walked (path : String) : String :=
  (properNames path).foldl child (if isAbsolute path then "/" else ".")

/-- Whether a path goes from the place itself, over single dots, to a doubled slash, as `.//a` does. -/
def isLost (path : String) : Bool :=
  !isAbsolute path &&
    match (names path).dropWhile (· = ".") with
    | "" :: _ :: _ => true
    | _ => false

end Path

namespace FileSystem

/-- The names in a folder; none if it is not one. -/
def namesIn (fs : FileSystem) (path : String) : List String :=
  match fs.folder path with
  | .ok entries => entries.keys
  | .error _ => []

/-- The paths of all that lies below a folder. -/
def below (fs : FileSystem) (path : String) : List String :=
  match fs.locate path with
  | .error _ => []
  | .ok place =>
    fs.entries.filterMap fun e =>
      match e.1.drop place.length with
      | first :: rest =>
        if place.isPrefixOf e.1 then some (rest.foldl Path.join (Path.child path first)) else none
      | [] => none

end FileSystem

namespace Glob

/-- What lies above, and the place itself, if a part speaks of them; it must begin with a dot. -/
def dotNames (tokens : List Token) : List String :=
  match tokens with
  | .char '.' :: _ => ["..", "."].filter fun n => accepts tokens n.toList
  | _ => []

/-- The paths that one part leads to from a folder. -/
def stepTo (fs : FileSystem) (path : String) (tokens : List Token) : List String :=
  match literal? tokens with
  | some cs =>
    let name := String.ofList cs
    let next := Path.child path name
    if name = "." || name = ".." then if fs.isFolder path then [next] else []
    else if fs.isThere next then [next] else []
  | none =>
    if fs.isFolder path then
      (dotNames tokens).map (Path.join path) ++
        ((fs.namesIn path).filter fun n => accepts tokens n.toList).map (Path.child path)
    else []

/-- The last name of a path is one that tokens stand for. -/
def endsIn (tokens : List Token) (path : String) : Bool :=
  match Path.fileName? path with
  | some name => accepts tokens name.toList
  | none => false

/-- The paths that parts of a pattern lead to. -/
def expand (fs : FileSystem) : List Part → String → List String
  | [], path => [path]
  | .name tokens :: rest, path => (stepTo fs path tokens).flatMap (expand fs rest)
  | .folders :: .folders :: rest, path => expand fs (.folders :: rest) path
  | .folders :: .name tokens :: rest, path =>
    ((fs.below path).filter (endsIn tokens)).flatMap (expand fs rest)
  | [.folders], path => (fs.below path).filter fs.isFolder

/-- The paths that a pattern speaks of, if it is one. -/
def paths? (fs : FileSystem) (pattern : String) : Option (List String) := do
  let found ← match pattern.toList with
    | '/' :: rest => (parts? rest).map fun parts => expand fs parts "/"
    | cs => (parts? cs).map fun parts => expand fs parts "."
  return if Text.endsWith "/" pattern then found.filter fs.isFolder else found

/-- A pattern laid under a root. -/
def resolve (root pattern : String) : String := Path.join (escape root) pattern

/-- The files below a root that a pattern speaks of, in order. -/
def discover (fs : FileSystem) (root pattern : String) : Except StoreError (List String) :=
  match paths? fs (resolve root pattern) with
  | none => .error (.badPattern (resolve root pattern))
  | some found =>
    .ok ((found.filter fs.isFile).mergeSort fun a b => Path.keyLe (Path.sortKey a) (Path.sortKey b))

/-- Whether a file is found that lies under a name in the folder at `root`. The empty name of a doubled slash
is looked up by itself, and so is the path by which the folder was walked to, with the name. -/
def canFind (root name : String) : Bool :=
  !Path.isLost root && (Path.child (Path.walked root) name).utf8ByteSize ≤ FileSystem.pathLimit

end Glob

end RouteFleet
