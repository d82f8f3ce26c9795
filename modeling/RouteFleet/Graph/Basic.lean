import RouteFleet.Dict
import RouteFleet.RouteId
import RouteFleet.Yaml.Value

/-! # Routing graphs

What the proxy is told about a route: routers that take requests, services that answer them, and
middlewares that requests pass on the way. Routers speak of services and middlewares by reference,
a name with or without the word where it is defined (`name@file`).

Parts of a graph that this library does not manage are kept beside the managed ones, in `extra`.
A list that is not there and an empty list are different things.
-/

namespace RouteFleet

open Text

/-- What stands in a structure beside the parts that are managed. -/
abbrev Extra := Dict Yaml.Value

/-! ## References -/

/-- What qualifies a name as defined in some file of the fleet. -/
def fileSuffix : String := "@file"

/-- The reference, from any file, to what some file calls `name`. -/
def fileRef (name : String) : String := name ++ fileSuffix

/-- The name that a reference speaks of. -/
def refName (reference : String) : String :=
  match splitLast '@' reference with
  | some (name, _) => name
  | none => reference

/-! ## Routers -/

/-- How a router ends encrypted connections. -/
structure RouterTls where
  certResolver : Option String := none
  extra : Extra := .empty
deriving DecidableEq, Inhabited

/-- Takes the requests that come in at some entry points and keep a rule. -/
structure Router where
  entryPoints : Option (List String) := none
  rule : String
  service : Option String := none
  tls : Option RouterTls := none
  middlewares : Option (List String) := none
  extra : Extra := .empty
deriving DecidableEq, Inhabited

/-! ## Services -/

/-- A server of a service. -/
structure Server where
  url : String
  extra : Extra := .empty
deriving DecidableEq, Inhabited

/-- Servers that share the requests to a service. -/
structure LoadBalancer where
  servers : Option (List Server) := none
  extra : Extra := .empty
deriving DecidableEq, Inhabited

/-- Answers requests. -/
structure Service where
  loadBalancer : Option LoadBalancer := none
  extra : Extra := .empty
deriving DecidableEq, Inhabited

/-! ## Middlewares -/

/-- Sends requests to the same place by another scheme. -/
structure RedirectScheme where
  scheme : String
  permanent : Option Bool := none
  extra : Extra := .empty
deriving DecidableEq, Inhabited

/-- Adds headers to requests and answers. -/
structure Headers where
  customRequestHeaders : Option (Dict String) := none
  stsSeconds : Option UInt64 := none
  extra : Extra := .empty
deriving DecidableEq, Inhabited

/-- Lets users pass who know their password. -/
structure BasicAuth where
  users : Option (List String) := none
  extra : Extra := .empty
deriving DecidableEq, Inhabited

/-- Which address of a forwarded request is the client's. -/
structure IpStrategy where
  depth : Option UInt32 := none
  extra : Extra := .empty
deriving DecidableEq, Inhabited

/-- Lets clients pass whose address is listed. -/
structure IpWhiteList where
  sourceRange : Option (List String) := none
  ipStrategy : Option IpStrategy := none
  extra : Extra := .empty
deriving DecidableEq, Inhabited

/-- Asks another server who may pass. -/
structure ForwardAuth where
  address : String
  extra : Extra := .empty
deriving DecidableEq, Inhabited

/-- A middleware: of a managed kind, or anything else, kept as it is. -/
inductive Middleware where
  | redirectScheme (body : RedirectScheme)
  | headers (body : Headers)
  | basicAuth (body : BasicAuth)
  | ipWhiteList (body : IpWhiteList)
  | forwardAuth (body : ForwardAuth)
  | other (entries : List (Yaml.Value × Yaml.Value))
deriving DecidableEq, Inhabited

/-! ## Graphs -/

/-- Routers, services and middlewares by their names. -/
structure HttpSection where
  routers : Dict Router := .empty
  services : Dict Service := .empty
  middlewares : Dict Middleware := .empty
  extra : Extra := .empty
deriving DecidableEq, Inhabited

/-- What one file tells the proxy. -/
structure Graph where
  http : HttpSection := {}
  extra : Extra := .empty
deriving DecidableEq, Inhabited

/-! ## Parts with their defaults -/

/-- Whether there is nothing in the section. -/
def HttpSection.isEmpty (s : HttpSection) : Bool :=
  s.routers.isEmpty && s.services.isEmpty && s.middlewares.isEmpty && s.extra.isEmpty

/-- The servers; none where there is no list. -/
def LoadBalancer.serverList (b : LoadBalancer) : List Server := b.servers.getD []

/-- The users; none where there is no list. -/
def BasicAuth.userList (b : BasicAuth) : List String := b.users.getD []

/-- The listed addresses; none where there is no list. -/
def IpWhiteList.sourceList (w : IpWhiteList) : List String := w.sourceRange.getD []

/-- The depth; the proxy takes zero where there is none. -/
def IpStrategy.effectiveDepth (s : IpStrategy) : UInt32 := s.depth.getD 0

namespace Router

/-- The entry points; none where there is no list. -/
def entryPointList (r : Router) : List String := r.entryPoints.getD []

/-- The references to middlewares, in the order in which requests pass them. -/
def refs (r : Router) : List String := r.middlewares.getD []

/-- Whether some reference speaks of the middleware `name`. -/
def hasMiddleware (r : Router) (name : String) : Bool := r.refs.any fun ref => refName ref = name

end Router

namespace Middleware

/-- The headers, if this is the middleware that adds some. -/
def headers? : Middleware → Option Headers
  | .headers h => some h
  | _ => none

/-- The users' middleware, if this is one. -/
def basicAuth? : Middleware → Option BasicAuth
  | .basicAuth b => some b
  | _ => none

/-- The address list, if this is one. -/
def ipWhiteList? : Middleware → Option IpWhiteList
  | .ipWhiteList w => some w
  | _ => none

end Middleware

/-! ## Names of references -/

theorem refName_fileRef (name : String) : refName (fileRef name) = name := by
  have h : cutLast '@' (name.toList ++ '@' :: ['f', 'i', 'l', 'e']) =
      some (name.toList, ['f', 'i', 'l', 'e']) := cutLast_append _ (by decide)
  simp [refName, fileRef, fileSuffix, splitLast, h]

end RouteFleet
