import RouteFleet.File.Error
import RouteFleet.Text.Split
import RouteFleet.Url.Error

/-! # Why settings are refused -/

namespace RouteFleet

/-- What is wrong with a setting. -/
inductive SettingFault where
  | noCertResolver
  | noFolder (configDir : String)
  | noPort
  | otherScheme (scheme : String)
  | badEndpoint (endpoint : String) (cause : UrlError)
deriving DecidableEq, Repr

/-- What is wrong. -/
def SettingFault.message : SettingFault → String
  | noCertResolver => "server.cert_resolver must not be empty"
  | noFolder configDir =>
    "server.config_dir '" ++ configDir ++ "' does not exist or is not a directory"
  | noPort => "server.listen_port must be between 1 and 65535"
  | otherScheme scheme =>
    "server.auth_endpoint must use http or https, got '" ++ scheme ++ "'"
  | badEndpoint endpoint cause =>
    "server.auth_endpoint '" ++ endpoint ++ "' is not a URL: " ++ cause.message

/-- Why there are no settings to go by. -/
inductive SettingsError where
  | unreadable (path : String) (cause : FileError)
  | notSettings (path : String)
  | invalid (faults : List SettingFault)
deriving DecidableEq, Repr

namespace SettingsError

/-- What is wrong. -/
def message : SettingsError → String
  | unreadable path cause => "failed to read settings file " ++ path ++ ": " ++ cause.message
  | notSettings path => "invalid settings file: " ++ path ++ "\n\nnot a `server` block"
  | invalid faults =>
    "settings validation failed:\n  - " ++
      Text.joinWith "\n  - " (faults.map SettingFault.message)

/-- What lies behind it, from the nearest cause to the farthest. -/
def causes : SettingsError → List String
  | unreadable _ cause => [cause.message]
  | notSettings _ => ["not a `server` block"]
  | invalid _ => []

/-- What the operator can do about it. -/
def hint : SettingsError → String
  | unreadable _ _ =>
    "Create a settings file or pass both --config-dir and --cert-resolver.\n\n" ++
    "Example (waypost.hcl):\n\n" ++
    "server \x7b\n" ++
    "  config_dir    = \"/etc/traefik/dynamic.d\"\n" ++
    "  cert_resolver = \"http01\"\n" ++
    "\x7d\n\n" ++
    "Or run: waypost init"
  | notSettings _ =>
    "Settings are HCL with a single `server` block.\n\n" ++
    "Required attributes: config_dir, cert_resolver.\n" ++
    "Optional attributes: listen_port, auth_endpoint."
  | invalid _ =>
    "The config directory must already exist; it is the directory the proxy's\n" ++
    "file provider watches."

end SettingsError

end RouteFleet
