import RouteFleet.Glob.Discover
import RouteFleet.RouteId
import RouteFleet.Store.Error

/-! # Stores of objects

A store is a folder in which each object is a file named for the object's key. Keys are plain: no key
leads out of the folder. Files that are written appear all at once or not at all, so an object is at
each moment the one before a write or the one after it.

The folder may be out of reach, and the system may refuse to write or remove. Which calls it will
refuse is part of the store, so that what becomes of a fleet can be told for each course of failures.
-/

namespace RouteFleet

/-- Which calls the system will refuse, counted from the next one. -/
structure Refusals where
  writes : Nat → Bool := fun _ => false
  removals : Nat → Bool := fun _ => false

/-- What is refused after one more write. -/
def Refusals.afterWrite (r : Refusals) : Refusals := { r with writes := fun n => r.writes (n + 1) }

/-- What is refused after one more removal. -/
def Refusals.afterRemoval (r : Refusals) : Refusals :=
  { r with removals := fun n => r.removals (n + 1) }

/-- A folder of objects. -/
structure Store where
  /-- The path of the folder. -/
  root : String
  /-- What lies in the folder, or why it is out of reach. -/
  content : Except FileError (Dict Entry)
  refusals : Refusals := {}

namespace Store

/-! ## Keys -/

/-- What the names begin with of objects that are not routes. -/
def sharedLead : String := "sys_"

/-- Whether a key names a file in the folder itself. -/
def isPlainKey (key : String) : Bool :=
  key ≠ "" && key ≠ "." && !Text.contains ".." key &&
    key.toList.all fun c => c ≠ '/' && c ≠ '\\' && c ≠ '\x00'

/-- The name of the file that holds an object. -/
def fileName (key : String) : String := (RouteId.mk key).fileName

/-- The path of the file that holds an object. -/
def path? (root key : String) : Except StoreError String :=
  if isPlainKey key then .ok (Path.join root (fileName key)) else .error (.invalidKey key)

/-- Whether the file of an object would have a name that is too long. -/
def isTooLong (key : String) : Bool := FileSystem.nameLimit < (fileName key).utf8ByteSize

/-- Whether the path of an object would be too long. -/
def isPathTooLong (root key : String) : Bool :=
  FileSystem.pathLimit < (Path.join root (fileName key)).utf8ByteSize

/-! ## Listing and reading -/

/-- The identity of the route that a file in the folder at `root` holds, if it is found there; files that
hold none have other names. -/
def routeOf? (root name : String) (entry : Entry) : Option RouteId :=
  match entry with
  | .folder => none
  | .file _ =>
    if Glob.canFind root name && Text.endsWith RouteId.fileEnding name &&
        !Text.beginsWith sharedLead name then
      RouteId.ofPath? name
    else none

/-- The identities of the routes that are found, in the order of their files' names. -/
def list (s : Store) : Except StoreError (List RouteId) :=
  match s.content with
  | .error _ => .error (.missingFolder s.root)
  | .ok entries => .ok (entries.entries.filterMap fun e => routeOf? s.root e.1 e.2)

/-- What lies where the object's file belongs. -/
def find (s : Store) (key : String) : Except StoreError (Option Entry) := do
  let path ← path? s.root key
  if isPathTooLong s.root key then .error (.io path .nameTooLong)
  else match s.content with
    | .error .notFound => .ok none
    | .error cause => .error (.io path cause)
    | .ok entries =>
      if isTooLong key then .error (.io path .nameTooLong)
      else .ok (entries.get? (fileName key))

/-- The bytes of an object, if there is one. -/
def read (s : Store) (key : String) : Except StoreError (Option ByteArray) := do
  match ← s.find key with
  | none => .ok none
  | some (.file bytes) => .ok (some bytes)
  | some .folder => .error (.io (Path.join s.root (fileName key)) .isFolder)

/-- Whether something lies where the object's file belongs. -/
def isThere (s : Store) (key : String) : Except StoreError Bool :=
  (s.find key).map Option.isSome

/-! ## Writing and removing -/

/-- Creates an object, or replaces it. -/
def write (s : Store) (key : String) (bytes : ByteArray) : Except StoreError Unit × Store :=
  let after := { s with refusals := s.refusals.afterWrite }
  match path? s.root key with
  | .error e => (.error e, after)
  | .ok path =>
    if s.refusals.writes 0 then (.error (.io path .diskFull), after)
    else match s.content with
      | .error cause => (.error (.io s.root cause), after)
      | .ok entries =>
        if isTooLong key || isPathTooLong s.root key then (.error (.io path .nameTooLong), after)
        else match entries.get? (fileName key) with
          | some .folder => (.error (.io path .isFolder), after)
          | _ => (.ok (), { after with
              content := .ok (entries.insert (fileName key) (.file bytes)) })

/-- Removes an object, and says whether there was one. -/
def remove (s : Store) (key : String) : Except StoreError Bool × Store :=
  let after := { s with refusals := s.refusals.afterRemoval }
  match path? s.root key with
  | .error e => (.error e, after)
  | .ok path =>
    if s.refusals.removals 0 then (.error (.io path .diskFull), after)
    else if isPathTooLong s.root key then (.error (.io path .nameTooLong), after)
    else match s.content with
      | .error .notFound => (.ok false, after)
      | .error cause => (.error (.io path cause), after)
      | .ok entries =>
        if isTooLong key then (.error (.io path .nameTooLong), after)
        else match entries.get? (fileName key) with
          | none => (.ok false, after)
          | some .folder => (.error (.io path .isFolder), after)
          | some (.file _) => (.ok true, { after with content := .ok (entries.erase (fileName key)) })

end Store

end RouteFleet
