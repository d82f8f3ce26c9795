import RouteFleet.RouteId

/-! # Routes as their operators describe them

A `Route` is what an operator fills in: which domain is served by which backend, and what guards
stand in between. Lists may have unused slots, entries with nothing filled in; the *active* entries
are the others.
-/

namespace RouteFleet

/-- The server that answers a route's requests. -/
structure Backend where
  url : String
  /-- What the last probe found; never stored. -/
  healthy : Bool := false
deriving DecidableEq, Repr, Inhabited

/-- A header to add to each request. -/
structure HeaderEntry where
  name : String := ""
  value : String := ""
deriving DecidableEq, Repr, Inhabited

/-- A user who may pass, with a password or the hash of one. -/
structure Credential where
  username : String := ""
  password : String := ""
deriving DecidableEq, Repr, Inhabited

/-- Which clients may pass. -/
structure IpRestriction where
  /-- How many addresses from the end of the forwarding chain the client stands. -/
  depth : Int64 := 0
  ips : List String := []
deriving DecidableEq, Repr, Inhabited

/-- A route as its operator describes it. -/
structure Route where
  id : Option RouteId := none
  name : String
  domain : String
  backend : Backend
  forwardAuth : Bool := false
  https : Bool := false
  forceTls : Bool := false
  hsts : Bool := false
  headers : List HeaderEntry := []
  basicAuth : List Credential := []
  ipRestriction : Option IpRestriction := none
deriving DecidableEq, Repr, Inhabited

/-- Whether the slot is unused. -/
def HeaderEntry.isEmpty (h : HeaderEntry) : Bool := h.name == "" && h.value == ""

/-- Whether the slot is unused. -/
def Credential.isEmpty (c : Credential) : Bool := c.username == "" && c.password == ""

/-- The addresses that are filled in. -/
def IpRestriction.activeIps (r : IpRestriction) : List String := r.ips.filter (· != "")

namespace Route

/-- The headers that are filled in. -/
def activeHeaders (r : Route) : List HeaderEntry := r.headers.filter (!·.isEmpty)

/-- The credentials that are filled in. -/
def activeCredentials (r : Route) : List Credential := r.basicAuth.filter (!·.isEmpty)

end Route

end RouteFleet
