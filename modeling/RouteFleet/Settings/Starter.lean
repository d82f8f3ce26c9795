import RouteFleet.File.System
import RouteFleet.Settings.Basic

/-! # Settings to start from

A starter is a settings file that names an empty folder beside it. It is written where no settings
are yet.
-/

namespace RouteFleet.Starter

/-- The name of the folder beside the settings. -/
def folderName : String := "dynamic.d"

/-- Settings with a folder, and for the rest what most operators start with. -/
def text (configDir : String) : String :=
  "server \x7b\n" ++
  "  config_dir    = \"" ++ configDir ++ "\"\n" ++
  "  cert_resolver = \"http01\"\n" ++
  "  listen_port   = 8099\n" ++
  "\n" ++
  "  # Enables forward auth for routes that ask for it.\n" ++
  "  # auth_endpoint = \"https://auth.example.com/authorize\"\n" ++
  "\x7d\n"

/-- Why no starter was written. -/
inductive Failure where
  | alreadyThere (path : String)
  | folderNotCreated (path : String) (cause : FileError)
  | notWritten (path : String) (cause : FileError)
deriving DecidableEq, Repr

/-- What is wrong. -/
def Failure.message : Failure → String
  | alreadyThere path => path ++ " already exists"
  | folderNotCreated path cause => "failed to create " ++ path ++ ": " ++ cause.message
  | notWritten path cause => "failed to write " ++ path ++ ": " ++ cause.message

/-- Writes a starter in the folder at `path`, which is created if it is missing. -/
def create (path : String) (files : FileSystem) : Except Failure Unit × FileSystem :=
  let settingsPath := Path.join path Settings.fileName
  let configDir := Path.join path folderName
  if files.isThere settingsPath then (.error (.alreadyThere settingsPath), files)
  else match files.createFolders configDir with
    | (.error cause, files) => (.error (.folderNotCreated configDir cause), files)
    | (.ok (), files) =>
      match files.write settingsPath (text configDir).toUTF8 with
      | .error cause => (.error (.notWritten settingsPath cause), files)
      | .ok files => (.ok (), files)

end RouteFleet.Starter
