import RouteFleet.File.System
import RouteFleet.RouteId

/-! # Files on the disk

Before a command runs, what it may look at is read from the disk; after it has run, what it changed
is written back. A file is written beside the one that it replaces and takes its place at once.
-/

namespace RouteFleet.Disk

/-- The path of a place. -/
def pathOf (place : Place) : String := "/" ++ Text.joinWith "/" place

/-- What lies at a place. -/
def entryAt (place : Place) : IO (Option Entry) := do
  let path := (← IO.currentDir) / pathOf place
  if ← path.isDir then return some .folder
  else if ← path.pathExists then return some (.file (← IO.FS.readBinFile path))
  else return none

/-- Takes over what lies at a place. -/
def recordPlace (files : FileSystem) (place : Place) : IO FileSystem := do
  match ← entryAt place with
  | some entry => return files.put place entry
  | none => return files

/-- The working folder, with the folders above it and nothing else. -/
def start : IO FileSystem := do
  let place := Path.steps (← IO.currentDir).toString
  let above := (List.range place.length).map fun n => (place.take (n + 1), Entry.folder)
  return { entries := above, start := place }

/-- The place that one name leads to. -/
def next (here : Place) (name : String) : Place :=
  if name = "" || name = "." then here
  else if name = ".." then here.dropLast
  else here ++ [name]

/-- Takes over what lies along a path. -/
def record (files : FileSystem) (path : String) : IO FileSystem := do
  let root := if Path.isAbsolute path then [] else files.start
  let walked ← (Path.names path).foldlM (fun (files, here) name => do
    let here := next here name
    return (← recordPlace files here, here)) (files, root)
  return walked.1

/-- Takes over the objects that lie directly in a folder. -/
def recordObjects (files : FileSystem) (path : String) : IO FileSystem := do
  let files ← record files path
  match files.locate path with
  | .error _ => return files
  | .ok place =>
    if files.isFolder path then
      let found ← ((← IO.currentDir) / pathOf place).readDir
      let objects := found.toList.filter fun e => Text.endsWith RouteId.fileEnding e.fileName
      objects.foldlM (fun files e => recordPlace files (place ++ [e.fileName])) files
    else return files

/-- Writes one entry. -/
def writeEntry (place : Place) (entry : Entry) : IO Unit := do
  let path := pathOf place
  match entry with
  | .folder => IO.FS.createDirAll path
  | .file bytes =>
    let staged := path ++ ".new"
    IO.FS.writeBinFile staged bytes
    IO.FS.rename staged path

/-- Writes what was changed, and then removes what is gone. Folders come before what lies in them. -/
def writeBack (before after : FileSystem) : IO Unit := do
  let changed := after.entries.filter fun e => before.entryAt e.1 != some e.2
  let gone := before.entries.filter fun e => (after.entryAt e.1).isNone
  let nearestFirst := changed.mergeSort fun a b => a.1.length ≤ b.1.length
  nearestFirst.forM fun e => writeEntry e.1 e.2
  gone.forM fun e => IO.FS.removeFile (pathOf e.1)

end RouteFleet.Disk
