import RouteFleet.Credential.Hasher
import RouteFleet.Route.Basic
import RouteFleet.Graph.Basic
import RouteFleet.SharedMiddlewares

/-! # From routes to graphs

A route becomes one router for unencrypted requests, and another for encrypted ones if it has them;
one service with one server; and the middlewares of its own that it needs. Requests pass what is
shared first, then headers, then passwords, then addresses.

A password that is itself a hash which the route's stored graph holds for the user is kept; any other
is hashed.
-/

namespace RouteFleet

open Text

/-! ## What compiling depends on -/

/-- Why a route was not compiled. -/
inductive CompileError where
  | hash (username : String) (cause : HashError)
deriving DecidableEq, Repr

/-- What is wrong. -/
def CompileError.message : CompileError → String
  | hash username cause =>
    "failed to hash password for user '" ++ username ++ "': " ++ cause.message

/-- What compiling depends on beside the route. -/
structure Compiler where
  /-- The certificate resolver of encrypted routers; none if it is empty. -/
  certResolver : String
  hasher : Hasher
  /-- The host's own address, if it can be found out. -/
  hostIp : Option String

namespace Compiler

/-! ## Headers -/

/-- What stands for the host's own address in the value of a header. -/
def addressToken : String := "$ServerIP"

/-- Written where the host's own address cannot be found out. -/
def unknownAddress : String := "n/a"

/-- The value of a header with the host's own address filled in. -/
def resolveValue (c : Compiler) (value : String) : String :=
  replaceAll addressToken (c.hostIp.getD unknownAddress) value

/-- The headers to add, by name. Of several with one name the last one counts; a header whose value
is empty is left out. -/
def resolveHeaders (c : Compiler) (route : Route) : Dict String :=
  Dict.ofList ((route.activeHeaders.map fun h => (h.name, c.resolveValue h.value)).filter
    fun e => e.2 ≠ "")

/-! ## Credentials -/

/-- The ending of the key of a users' middleware. -/
def basicAuthKind : String := "basicauth"

/-- The ending of the key of a middleware that adds headers. -/
def headersKind : String := "headers"

/-- The ending of the key of an address list. -/
def ipRestrictKind : String := "iprestrict"

/-- The hashes that a graph holds, by user. The graph may still bear another identity, so every
users' middleware counts whose key has the right ending. -/
def storedHashes (g : Graph) : Dict String :=
  Dict.ofList (g.http.middlewares.entries.flatMap fun e =>
    if endsWith ("-" ++ basicAuthKind) e.1 then
      match e.2.basicAuth? with
      | some auth => auth.userList.filterMap (splitFirst ':')
      | none => []
    else [])

/-- The hash for a credential: the password itself if it is the stored hash, else a new one. -/
def hashCredential (c : Compiler) (stored : Dict String) (entry : Credential) :
    Except CompileError String :=
  if stored.get? entry.username = some entry.password then
    .ok (entry.username ++ ":" ++ entry.password)
  else
    match c.hasher entry.password with
    | .ok hash => .ok (entry.username ++ ":" ++ hash)
    | .error cause => .error (.hash entry.username cause)

/-- The users with their hashes, in the order of the route. -/
def hashCredentials (c : Compiler) (stored : Dict String) :
    List Credential → Except CompileError (List String)
  | [] => .ok []
  | entry :: rest => do
    let user ← c.hashCredential stored entry
    let users ← c.hashCredentials stored rest
    return user :: users

/-! ## Middlewares of a route -/

/-- The depth that is written for a restriction; zero and what is out of range are not written. -/
def depthOf (depth : Int64) : Option IpStrategy :=
  if 0 < depth.toInt && depth.toInt < (UInt32.size : Int) then
    some { depth := some (UInt32.ofNat depth.toInt.toNat) }
  else none

/-- The middleware that adds headers, if there are some. -/
def headersMiddleware (c : Compiler) (id : RouteId) (route : Route) :
    List (String × Middleware) :=
  if (c.resolveHeaders route).isEmpty then []
  else [(id.middleware headersKind,
    .headers { customRequestHeaders := some (c.resolveHeaders route) })]

/-- The users' middleware, if there are some. -/
def basicAuthMiddleware (id : RouteId) (users : List String) : List (String × Middleware) :=
  if users.isEmpty then [] else [(id.middleware basicAuthKind, .basicAuth { users := some users })]

/-- The address list, if there are addresses. -/
def ipMiddleware (id : RouteId) (route : Route) : List (String × Middleware) :=
  match route.ipRestriction with
  | none => []
  | some r =>
    if r.activeIps.isEmpty then []
    else [(id.middleware ipRestrictKind,
      .ipWhiteList { sourceRange := some r.activeIps, ipStrategy := depthOf r.depth })]

/-! ## Routers -/

/-- A reference, where a condition holds. -/
def refIf (condition : Bool) (name : String) : List String :=
  if condition then [fileRef name] else []

/-- References to some middlewares. -/
def refsTo (middlewares : List (String × Middleware)) : List String :=
  middlewares.map fun e => fileRef e.1

/-- A list that is there only if it is not empty. -/
def listIfAny (l : List String) : Option (List String) := if l.isEmpty then none else some l

/-- The TLS block of encrypted routers. -/
def tls (c : Compiler) : RouterTls :=
  { certResolver := if c.certResolver = "" then none else some c.certResolver }

/-- The rule by which routers know a route's requests. -/
def ruleOf (route : Route) : String := "Host(`" ++ route.domain ++ "`)"

/-- The router for unencrypted requests, with the route's own middlewares. Users show passwords
here only if there is no other router. -/
def plainRouter (id : RouteId) (route : Route) (headers auth ips : List (String × Middleware)) :
    Router :=
  { entryPoints := some ["web"]
    rule := ruleOf route
    service := some (fileRef id.text)
    middlewares := listIfAny (refIf (route.https && route.forceTls) SharedMiddlewares.redirect ++
      refIf route.forwardAuth SharedMiddlewares.forwardAuthName ++
      refsTo headers ++ (if route.https then [] else refsTo auth) ++ refsTo ips) }

/-- The router for encrypted requests, with the route's own middlewares. -/
def secureRouter (c : Compiler) (id : RouteId) (route : Route)
    (headers auth ips : List (String × Middleware)) : Router :=
  { entryPoints := some ["websecure"]
    rule := ruleOf route
    service := some (fileRef id.text)
    tls := some c.tls
    middlewares := listIfAny (refIf route.hsts SharedMiddlewares.hsts ++
      refIf route.forwardAuth SharedMiddlewares.forwardAuthName ++
      refsTo headers ++ refsTo auth ++ refsTo ips) }

/-! ## Graphs -/

/-- The service that answers with one server. -/
def serviceOf (route : Route) : Service :=
  { loadBalancer := some { servers := some [{ url := route.backend.url }] } }

/-- The graph of a route whose users are hashed. -/
def graphOf (c : Compiler) (id : RouteId) (route : Route) (users : List String) : Graph :=
  let headers := c.headersMiddleware id route
  let auth := basicAuthMiddleware id users
  let ips := ipMiddleware id route
  { http := {
      routers := Dict.ofList ((id.httpRouter, plainRouter id route headers auth ips) ::
        if route.https then [(id.text, c.secureRouter id route headers auth ips)] else [])
      services := Dict.ofList [(id.text, serviceOf route)]
      middlewares := Dict.ofList (headers ++ auth ++ ips) } }

/-- Compiles a route, with the hashes that `previous` holds. -/
def recompile (c : Compiler) (id : RouteId) (route : Route) (previous : Option Graph) :
    Except CompileError Graph := do
  let stored := match previous with
    | some g => storedHashes g
    | none => .empty
  let users ← c.hashCredentials stored route.activeCredentials
  return c.graphOf id route users

/-- Compiles a route that was never stored. -/
def compile (c : Compiler) (id : RouteId) (route : Route) : Except CompileError Graph :=
  c.recompile id route none

end Compiler

end RouteFleet
