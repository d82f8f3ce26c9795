import RouteFleet.File.System
import RouteFleet.Settings.Document
import RouteFleet.Settings.Error
import RouteFleet.Url.Basic

/-! # Finding the settings

Settings come from a file, from the command line, or from both; what the command line says wins.
Before they are used, all that is wrong with them is told at once.
-/

namespace RouteFleet

namespace Settings

/-! ## Faults -/

/-- What is wrong with an endpoint. -/
def endpointFaults (endpoint : String) : List SettingFault :=
  match Url.read endpoint with
  | .error cause => [.badEndpoint endpoint cause]
  | .ok url => if url.scheme = "http" || url.scheme = "https" then [] else [.otherScheme url.scheme]

/-- All that is wrong with settings. -/
def faults (files : FileSystem) (s : Settings) : List SettingFault :=
  (if s.certResolver.toList.all Text.isBlank then [.noCertResolver] else []) ++
  (if files.isFolder s.configDir then [] else [.noFolder s.configDir]) ++
  (if s.listenPort = 0 then [.noPort] else []) ++
  (match s.authEndpoint with
    | some endpoint => endpointFaults endpoint
    | none => [])

/-- Refuses settings with which something is wrong. -/
def validate (files : FileSystem) (s : Settings) : Except SettingsError Unit :=
  match s.faults files with
  | [] => .ok ()
  | faults => .error (.invalid faults)

/-! ## Files -/

/-- Reads the settings in a file. -/
def load (files : FileSystem) (path : String) : Except SettingsError Settings := do
  match files.readText path with
  | .error cause => .error (.unreadable path cause)
  | .ok text =>
    match ofText? text with
    | some s => .ok s
    | none => .error (.notSettings path)

end Settings

/-- Where settings come from. -/
structure SettingsSource where
  path : String := Settings.fileName
  configDir : Option String := none
  certResolver : Option String := none
deriving DecidableEq, Repr, Inhabited

namespace SettingsSource

/-- The settings as the source has them. A file may be missing if both values are given that have no
default. -/
def read (source : SettingsSource) (files : FileSystem) : Except SettingsError Settings :=
  match source.configDir, source.certResolver, files.isThere source.path with
  | some configDir, some certResolver, false =>
    .ok { configDir := configDir, certResolver := certResolver }
  | configDir, certResolver, _ =>
    (Settings.load files source.path).map (·.withOverrides configDir certResolver)

/-- The settings of a source, if nothing is wrong with them. -/
def resolve (source : SettingsSource) (files : FileSystem) : Except SettingsError Settings := do
  let settings ← source.read files
  settings.validate files
  return settings

end SettingsSource

end RouteFleet
