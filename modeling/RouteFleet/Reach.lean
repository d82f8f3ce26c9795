import RouteFleet.Route.Basic
import RouteFleet.Url.Basic

/-! # Reaching backends

Whether a backend answers is found out for display only and never stored. A backend whose URL cannot
be read, or names no host and port, does not answer.
-/

namespace RouteFleet

/-- Where a server can be reached. -/
structure Address where
  host : Host
  port : UInt16
deriving DecidableEq, Repr

/-- Where the server of a URL can be reached. -/
def Url.address? (u : Url) : Option Address := do
  return { host := ← u.host, port := ← u.effectivePort? }

namespace Backend

/-- Where a backend can be reached. -/
def address? (b : Backend) : Option Address :=
  match Url.read b.url with
  | .ok url => url.address?
  | .error _ => none

/-- A backend with what a probe finds, where `answers` says which addresses answer. -/
def probed (answers : Address → Bool) (b : Backend) : Backend :=
  { b with healthy := b.address?.any answers }

end Backend

/-- A route with what a probe of its backend finds. -/
def Route.probed (answers : Address → Bool) (r : Route) : Route :=
  { r with backend := r.backend.probed answers }

end RouteFleet
