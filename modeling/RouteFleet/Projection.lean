import RouteFleet.Compile
import RouteFleet.Graph.Edit

/-! # From graphs back to routes

What an operator is shown of a stored graph. Passwords come back as their hashes.
-/

namespace RouteFleet

open Text

/-- Why a graph does not show a route. -/
inductive ProjectionError where
  | missingRouter (id : RouteId)
  | missingService (id : RouteId) (service : String)
  | missingBackend (id : RouteId)
deriving DecidableEq, Repr

/-- What is wrong. -/
def ProjectionError.message : ProjectionError → String
  | missingRouter id => "route '" ++ id.text ++ "' has no router"
  | missingService id service =>
    "route '" ++ id.text ++ "' references missing service '" ++ service ++ "'"
  | missingBackend id => "service of route '" ++ id.text ++ "' has no backend server"

namespace Graph

/-- The domain that a rule speaks of; the whole rule if it is of another kind. -/
def hostOf (rule : String) : String :=
  match stripLead? "Host(`" rule with
  | some rest =>
    match stripTail? "`)" rest with
    | some host => host
    | none => rule
  | none => rule

/-- A user with the hash in place of the password. -/
def credentialOf (user : String) : Credential :=
  match splitFirst ':' user with
  | some (username, hash) => { username := username, password := hash }
  | none => { username := user }

/-- The headers that the route's own middleware adds. -/
def headersOf (g : Graph) (id : RouteId) : List HeaderEntry :=
  match (g.http.middlewares.get? (id.middleware Compiler.headersKind)).bind Middleware.headers? with
  | some h =>
    match h.customRequestHeaders with
    | some headers => headers.entries.map fun e => { name := e.1, value := e.2 }
    | none => []
  | none => []

/-- The users whom the route's own middleware lets pass. -/
def credentialsOf (g : Graph) (id : RouteId) : List Credential :=
  match (g.http.middlewares.get? (id.middleware Compiler.basicAuthKind)).bind
      Middleware.basicAuth? with
  | some auth => auth.userList.map credentialOf
  | none => []

/-- The addresses that the route's own middleware lets pass. -/
def restrictionOf (g : Graph) (id : RouteId) : Option IpRestriction :=
  ((g.http.middlewares.get? (id.middleware Compiler.ipRestrictKind)).bind
    Middleware.ipWhiteList?).map fun w =>
    { depth := match w.ipStrategy with
        | some s => Int64.ofNat s.effectiveDepth.toNat
        | none => 0
      ips := w.sourceList }

/-- The first server of a service. -/
def firstServer? (s : Service) : Option Server :=
  s.loadBalancer.bind fun b => b.serverList.head?

/-- The route that a graph shows under an identity. -/
def project (g : Graph) (id : RouteId) : Except ProjectionError Route :=
  let plain := g.http.routers.get? id.httpRouter
  let secure := g.http.routers.get? id.text
  match plain.or secure with
  | none => .error (.missingRouter id)
  | some primary =>
    let service := (primary.service.map refName).getD id.text
    match g.http.services.get? service with
    | none => .error (.missingService id service)
    | some s =>
      match firstServer? s with
      | none => .error (.missingBackend id)
      | some server => .ok {
          id := some id
          name := id.name
          domain := hostOf primary.rule
          backend := { url := server.url }
          forwardAuth := g.anyRouterHas SharedMiddlewares.forwardAuthName
          https := secure.any fun r => r.tls.isSome
          forceTls := plain.any fun r => r.hasMiddleware SharedMiddlewares.redirect
          hsts := secure.any fun r => r.hasMiddleware SharedMiddlewares.hsts
          headers := g.headersOf id
          basicAuth := g.credentialsOf id
          ipRestriction := g.restrictionOf id }

end Graph

end RouteFleet
