import RouteFleet.Graph.Basic

/-! # Middlewares that all routes share

One object of the fleet is not a route: it defines the middlewares that every route may refer to
without defining them.
-/

namespace RouteFleet

/-- The port of the local server, where none is given. -/
def defaultListenPort : UInt16 := 8099

/-- What the shared middlewares are made from. -/
structure SharedMiddlewares where
  /-- Where the local server listens that answers for forward authentication. -/
  listenPort : UInt16 := defaultListenPort
  /-- Whether there is somebody to ask who may pass. -/
  forwardAuth : Bool := false
deriving DecidableEq, Repr, Inhabited

namespace SharedMiddlewares

/-- The key of the shared object. -/
def objectKey : String := "sys_middlewares"

/-- Sends requests over to the encrypted scheme. -/
def redirect : String := "sys-redirscheme"

/-- Tells clients to come back by the encrypted scheme only. -/
def hsts : String := "sys-hsts"

/-- Asks another server who may pass. -/
def forwardAuthName : String := "sys-forwardauth"

/-- All names that are ever shared. -/
def wellKnown : List String := [redirect, hsts, forwardAuthName]

/-- For how many seconds clients remember to come back by the encrypted scheme: a year. -/
def hstsSeconds : UInt64 := 31536000

/-- Where the proxy asks who may pass. -/
def forwardAuthAddress (s : SharedMiddlewares) : String :=
  "http://localhost:" ++ toString s.listenPort.toNat ++ "/auth"

/-- The names that the shared object defines. -/
def names (s : SharedMiddlewares) : List String :=
  [redirect, hsts] ++ if s.forwardAuth then [forwardAuthName] else []

/-- The middlewares by their names. -/
def middlewares (s : SharedMiddlewares) : List (String × Middleware) :=
  [(redirect, .redirectScheme { scheme := "https", permanent := some true }),
    (hsts, .headers { stsSeconds := some hstsSeconds })] ++
  if s.forwardAuth then [(forwardAuthName, .forwardAuth { address := s.forwardAuthAddress })]
  else []

/-- The shared object. -/
def graph (s : SharedMiddlewares) : Graph :=
  { http := { middlewares := Dict.ofList s.middlewares } }

end SharedMiddlewares

end RouteFleet
