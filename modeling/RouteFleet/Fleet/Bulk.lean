import RouteFleet.Fleet.Basic
import RouteFleet.Graph.Edit

/-! # Changing all routes

Operations on the whole fleet read all routes before they change the first, so a fleet that cannot be
read stays as it is. They stop at the first route that cannot be written; those before it stay
changed.
-/

namespace RouteFleet

/-- What to do about forward authentication. -/
inductive ForwardAuthChange where
  | attach
  | detach
deriving DecidableEq, Repr

namespace Fleet

/-- Writes the shared middlewares. -/
def writeShared (shared : SharedMiddlewares) : FleetM Unit :=
  save SharedMiddlewares.objectKey shared.graph

/-! ## Editing each graph -/

/-- Edits some routes and says how many were written: those that the edit changes. -/
def editEach (change : Graph → Graph) : List StoredRoute → FleetM Nat
  | [] => return 0
  | r :: rest => do
    if change r.graph = r.graph then editEach change rest
    else
      save r.id.text (change r.graph)
      return (← editEach change rest) + 1

/-- Edits all routes and says how many were written. -/
def edit (change : Graph → Graph) : FleetM Nat := do
  editEach change (← list)

/-- Points each TLS block of a graph at a certificate resolver. -/
def pointAt (name : String) (g : Graph) : Graph := g.mapRouters (·.withCertResolver name)

/-- Points all routes, also those to come, at a certificate resolver. -/
def setCertResolver (name : String) : FleetM Nat := do
  let count ← edit (pointAt name)
  modify fun fleet => { fleet with compiler := { fleet.compiler with certResolver := name } }
  return count

/-- A router that refers to forward authentication, at the end if it did not already. -/
def withForwardAuth (r : Router) : Router :=
  if r.hasMiddleware SharedMiddlewares.forwardAuthName then r
  else r.attach (fileRef SharedMiddlewares.forwardAuthName)

/-- Changes each router's reference to forward authentication. -/
def changeForwardAuth (change : ForwardAuthChange) (g : Graph) : Graph :=
  match change with
  | .attach => g.mapRouters withForwardAuth
  | .detach => g.mapRouters (·.detach SharedMiddlewares.forwardAuthName)

/-- Changes the reference to forward authentication in all routes. -/
def setForwardAuth (change : ForwardAuthChange) : FleetM Nat := edit (changeForwardAuth change)

/-! ## Moving legacy routes -/

/-- Gives some routes a tag, and says which identities they had and have. Each is written under its
new identity before it is removed under the old one. -/
def moveEach : List StoredRoute → FleetM (List (RouteId × RouteId))
  | [] => return []
  | r :: rest => do
    let id ← freshId r.id.name
    save id.text (r.graph.rename r.id id)
    discard (remove r.id)
    return (r.id, id) :: (← moveEach rest)

/-- Gives each legacy route a tag. -/
def migrate : FleetM (List (RouteId × RouteId)) := do
  moveEach ((← list).filter (·.id.isLegacy))

end Fleet

end RouteFleet
