import RouteFleet.Command.Run
import RouteFleet.Credential.Bcrypt
import RouteFleet.Machine.Disk
import RouteFleet.Machine.Network

/-! # The program

Reads what a command looks at, runs it, and writes what it changed.
-/

namespace RouteFleet.Program

/-- What a command looks at on the disk. -/
def filesFor (command : Command) : IO FileSystem := do
  let files ← command.paths.foldlM Disk.record (← Disk.start)
  match command.folder? files with
  | some folder => Disk.recordObjects files folder
  | none => return files

/-- The number that bytes spell. -/
def numberOf (bytes : ByteArray) : Nat := bytes.toList.foldl (fun n b => n * 256 + b.toNat) 0

/-- A tag that chance brings. -/
def randomTag : IO Tag := do return Tag.ofNat (numberOf (← IO.getRandomBytes 4))

/-- A session with some files. It has more tags than one command could use up. -/
def sessionWith (files : FileSystem) : IO Session := do
  let tags ← (List.range (2 * files.entries.length + 64)).mapM fun _ => randomTag
  let salt ← IO.getRandomBytes Bcrypt.saltSize.toUSize
  return { files := files, tags := tags, hasher := Bcrypt.hasher salt, hostIp := ← Network.hostIp }

/-- A session in which a command can run. -/
def sessionFor (command : Command) : IO Session := do
  let session ← sessionWith (← filesFor command)
  let found ← Network.answering (session.probed command)
  return { session with answers := found.contains }

/-- A session for a request; only a command needs to know this machine. -/
def openSession : Option Request → IO Session
  | some (.run command) => sessionFor command
  | _ => do sessionWith (← Disk.start)

end RouteFleet.Program

open RouteFleet

/-- Does what the command line asks for. -/
def main (words : List String) : IO UInt32 := do
  let before ← Program.openSession (Request.ofWords? words)
  let (code, after) := before.answer words
  Disk.writeBack before.files after.files
  IO.print after.out
  IO.eprint after.err
  return code
