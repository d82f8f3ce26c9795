import RouteFleet.SharedMiddlewares

/-! # Settings

What an operator sets once for the whole fleet: where its objects are stored, which certificate
resolver the proxy has, and who is asked when a route wants forward authentication.
-/

namespace RouteFleet

/-- What an operator sets for the whole fleet. -/
structure Settings where
  /-- The folder that the proxy watches. -/
  configDir : String
  /-- A certificate resolver that the proxy has. -/
  certResolver : String
  /-- Where the local server listens that answers for forward authentication. -/
  listenPort : UInt16 := defaultListenPort
  /-- Who is asked in forward authentication; without it nobody is. -/
  authEndpoint : Option String := none
deriving DecidableEq, Repr, Inhabited

namespace Settings

/-- The name of a settings file. -/
def fileName : String := "waypost.hcl"

/-- The middlewares that all routes share under these settings. -/
def sharedMiddlewares (s : Settings) : SharedMiddlewares :=
  { listenPort := s.listenPort, forwardAuth := s.authEndpoint.isSome }

/-- The settings with a folder and a certificate resolver instead of their own, where given. -/
def withOverrides (s : Settings) (configDir certResolver : Option String) : Settings :=
  { s with
    configDir := configDir.getD s.configDir
    certResolver := certResolver.getD s.certResolver }

end Settings

end RouteFleet
