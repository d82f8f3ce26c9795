import RouteFleet.Dict
import RouteFleet.File.Error
import RouteFleet.File.Path

/-! # Trees of files

A file system is a list of places, each the names that lead to it from the top, and of what lies
there. Nothing lies below a file, and whatever lies below a folder is listed with it. Paths are walked
name by name: each step needs a folder to start from, so a path that passes through a file or through
nothing leads nowhere, also where it comes back by going up.
-/

namespace RouteFleet

/-- What can lie at a place. -/
inductive Entry where
  | file (bytes : ByteArray)
  | folder
deriving Inhabited

instance : DecidableEq Entry
  | .file a, .file b =>
    if h : a.data = b.data then isTrue (congrArg Entry.file (ByteArray.ext h))
    else isFalse fun h' => h (congrArg ByteArray.data (Entry.file.inj h'))
  | .folder, .folder => isTrue rfl
  | .file _, .folder => isFalse nofun
  | .folder, .file _ => isFalse nofun

/-- The bytes of a file. -/
def Entry.bytes? : Entry → Option ByteArray
  | .file bytes => some bytes
  | .folder => none

/-- The names that lead from the top to a place. -/
abbrev Place := List String

/-- A tree of files, and the folder in it from which paths start. -/
structure FileSystem where
  entries : List (Place × Entry)
  start : Place

namespace FileSystem

/-- The longest name, in bytes. -/
def nameLimit : Nat := 255

/-- The longest path, in bytes. -/
def pathLimit : Nat := 4095

/-! ## Places -/

/-- What lies at a place; at the top lies a folder. -/
def entryAt (fs : FileSystem) : Place → Option Entry
  | [] => some .folder
  | place => fs.entries.lookup place

/-- One step from a place by a name. -/
def step (fs : FileSystem) (here : Place) (name : String) : Except FileError Place :=
  match fs.entryAt here with
  | none => .error .notFound
  | some (.file _) => .error .notFolder
  | some .folder =>
    if name = "" || name = "." then .ok here
    else if name = ".." then .ok here.dropLast
    else if nameLimit < name.utf8ByteSize then .error .nameTooLong
    else .ok (here ++ [name])

/-- The place that a path leads to. Something lies there or, if not, in the folder above. -/
def locate (fs : FileSystem) (path : String) : Except FileError Place :=
  if path = "" || path.toList.contains '\x00' then .error .notFound
  else if pathLimit < path.utf8ByteSize then .error .nameTooLong
  else (Path.names path).foldlM fs.step (if Path.isAbsolute path then [] else fs.start)

/-- What lies where a path leads. -/
def find (fs : FileSystem) (path : String) : Except FileError Entry := do
  match fs.entryAt (← fs.locate path) with
  | some entry => .ok entry
  | none => .error .notFound

/-- Whether a path leads to something. -/
def isThere (fs : FileSystem) (path : String) : Bool := (fs.find path).toBool

/-- Whether a path leads to a folder. -/
def isFolder (fs : FileSystem) (path : String) : Bool :=
  match fs.find path with
  | .ok .folder => true
  | _ => false

/-- Whether a path leads to a file. -/
def isFile (fs : FileSystem) (path : String) : Bool :=
  match fs.find path with
  | .ok (.file _) => true
  | _ => false

/-! ## Reading -/

/-- The bytes of a file. -/
def read (fs : FileSystem) (path : String) : Except FileError ByteArray := do
  match ← fs.find path with
  | .file bytes => .ok bytes
  | .folder => .error .isFolder

/-- The text of a file. -/
def readText (fs : FileSystem) (path : String) : Except FileError String := do
  match String.fromUTF8? (← fs.read path) with
  | some text => .ok text
  | none => .error .notText

/-- The name of what lies directly in the folder at `place`, if `other` is a place there. -/
def nameIn (place other : Place) : Option String :=
  match other.getLast? with
  | some name => if other.dropLast = place then some name else none
  | none => none

/-- What lies directly in the folder at a place. -/
def children (fs : FileSystem) (place : Place) : Dict Entry :=
  Dict.ofList (fs.entries.filterMap fun e => (nameIn place e.1).map (·, e.2))

/-- What lies directly in a folder. -/
def folder (fs : FileSystem) (path : String) : Except FileError (Dict Entry) := do
  let place ← fs.locate path
  match fs.entryAt place with
  | some .folder => .ok (fs.children place)
  | some (.file _) => .error .notFolder
  | none => .error .notFound

/-! ## Writing -/

/-- Puts something at a place, instead of what lay there. -/
def put (fs : FileSystem) (place : Place) (entry : Entry) : FileSystem :=
  { fs with entries := fs.entries.filter (fun e => e.1 ≠ place) ++ [(place, entry)] }

/-- Takes away what lies at a place, and all below it. -/
def clear (fs : FileSystem) (place : Place) : FileSystem :=
  { fs with entries := fs.entries.filter fun e => !place.isPrefixOf e.1 }

/-- Writes a file, instead of one that was there. -/
def write (fs : FileSystem) (path : String) (bytes : ByteArray) :
    Except FileError FileSystem := do
  let place ← fs.locate path
  match fs.entryAt place with
  | some .folder => .error .isFolder
  | _ => .ok (fs.put place (.file bytes))

/-- Walks by names and creates each folder that is missing on the way; `made` says whether one was.
A file in the way counts as a folder that cannot be passed, but as something that exists already at
the end or after a folder was made. -/
def createFrom (here : Place) (made : Bool) : List String → FileSystem →
    Except FileError Unit × FileSystem
  | [], fs => (.ok (), fs)
  | name :: rest, fs =>
    match fs.step here name with
    | .error e => (.error e, fs)
    | .ok next =>
      match fs.entryAt next with
      | some .folder => createFrom next made rest fs
      | some (.file _) =>
        (.error (if made || rest.isEmpty then .alreadyExists else .notFolder), fs)
      | none => createFrom next true rest (fs.put next .folder)

/-- Creates a folder, and those above it that are missing. What was made before an error stays. -/
def createFolders (fs : FileSystem) (path : String) : Except FileError Unit × FileSystem :=
  if path = "" then (.ok (), fs)
  else if pathLimit < path.utf8ByteSize then (.error .nameTooLong, fs)
  else createFrom (if Path.isAbsolute path then [] else fs.start) false (Path.steps path) fs

/-- The folder at a place with the files of `files` in it and no others. Folders stay. -/
def withFiles (fs : FileSystem) (place : Place) (files : Dict Entry) : FileSystem :=
  let isOldFile (e : Place × Entry) : Bool := (nameIn place e.1).isSome && e.2.bytes?.isSome
  let newFiles := files.entries.filterMap fun e =>
    e.2.bytes?.map fun bytes => (place ++ [e.1], Entry.file bytes)
  { fs with entries := fs.entries.filter (fun e => !isOldFile e) ++ newFiles }

end FileSystem

end RouteFleet
