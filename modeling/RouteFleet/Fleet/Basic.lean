import RouteFleet.Fleet.Error
import RouteFleet.Graph.Text
import RouteFleet.Store.Basic

/-! # Fleets of routes

A fleet is the routes in a store. Routes are added, replaced and removed one at a time; each is filed
under an identity whose tag chance brings, and no two routes of a fleet bear the same name.

An operation that fails says why, and the fleet is then as far as it came.
-/

namespace RouteFleet

/-- The routes in a store, and what it takes to change them. -/
structure Fleet where
  store : Store
  /-- The tags that chance will bring, the next one first. -/
  tags : List Tag
  compiler : Compiler

/-- A route as it is stored. -/
structure StoredRoute where
  id : RouteId
  graph : Graph
deriving DecidableEq

/-- What an operator is shown of a stored route. -/
def StoredRoute.describe (r : StoredRoute) : Except ProjectionError Route := r.graph.project r.id

/-- An operation on a fleet. -/
abbrev FleetM := ExceptT FleetError (StateM Fleet)

namespace Fleet

/-! ## The store of a fleet -/

/-- What looks at the store. -/
def look {α : Type} (f : Store → Except StoreError α) : FleetM α := fun fleet =>
  ((f fleet.store).mapError .store, fleet)

/-- What changes the store. -/
def act {α : Type} (f : Store → Except StoreError α × Store) : FleetM α := fun fleet =>
  let (result, store) := f fleet.store
  (result.mapError .store, { fleet with store := store })

/-- The bytes that a graph is stored as. -/
def bytesOf (key : String) (g : Graph) : Except StoreError ByteArray :=
  match g.toText? with
  | some text => .ok text.toUTF8
  | none => .error (.unwritable key)

/-- The graph that bytes are read as. -/
def graphOf (key : String) (bytes : ByteArray) : Except StoreError Graph :=
  match Graph.ofBytes? bytes with
  | some g => .ok g
  | none => .error (.unreadable key)

/-- The graph under an identity, if there is one. -/
def load (id : RouteId) : FleetM (Option Graph) := do
  match ← look (·.read id.text) with
  | some bytes => return some (← look fun _ => graphOf id.text bytes)
  | none => return none

/-- Stores a graph under a key. -/
def save (key : String) (g : Graph) : FleetM Unit := do
  let bytes ← look fun _ => bytesOf key g
  act (·.write key bytes)

/-- Removes what is stored under an identity, and says whether there was something. -/
def remove (id : RouteId) : FleetM Bool := act (·.remove id.text)

/-! ## Identities -/

/-- Whether a stored route other than `except` bears the name. -/
def isNameTaken (name : String) (except : Option RouteId) : FleetM Bool := do
  let ids ← look (·.list)
  return ids.any fun id => id.name = name && some id ≠ except

/-- The first identity under which nothing is stored that some tags make, and the tags left. -/
def firstFree (s : Store) (name : String) : List Tag → Except FleetError RouteId × List Tag
  | [] => (.error .noTagLeft, [])
  | tag :: rest =>
    match s.isThere (RouteId.ofTag name tag).text with
    | .error cause => (.error (.store cause), rest)
    | .ok true => firstFree s name rest
    | .ok false => (.ok (RouteId.ofTag name tag), rest)

/-- A new identity for a route called `name`. -/
def freshId (name : String) : FleetM RouteId := fun fleet =>
  let (result, rest) := firstFree fleet.store name fleet.tags
  (result, { fleet with tags := rest })

/-! ## One route -/

/-- Refuses a route that breaks rules. -/
def check (route : Route) : FleetM Unit :=
  if route.validate.isValid then pure () else throw (.invalid route.validate)

/-- Refuses a name that a stored route other than `except` bears. -/
def checkName (name : String) (except : Option RouteId) : FleetM Unit := do
  if ← isNameTaken name except then throw (.alreadyExists name)

/-- Compiles a route, with the hashes of the graph that it replaces. -/
def compile (id : RouteId) (route : Route) (previous : Option Graph) : FleetM Graph :=
  fun fleet => ((fleet.compiler.recompile id route previous).mapError (.compile id), fleet)

/-- Stores a new route. -/
def add (route : Route) : FleetM StoredRoute := do
  check route
  checkName route.name none
  let id ← freshId route.name
  let graph ← compile id route none
  save id.text graph
  return { id := id, graph := graph }

/-- The identity that a route is stored under from now on: a new one if its name changes. -/
def nextId (current : RouteId) (name : String) : FleetM RouteId := do
  if current.name = name then return current
  else
    checkName name (some current)
    freshId name

/-- Replaces the route whose identity `route` bears. The new one is written before the old one is
removed. -/
def update (route : Route) : FleetM StoredRoute := do
  match route.id with
  | none => throw .missingId
  | some current =>
    check route
    match ← load current with
    | none => throw (.notFound current)
    | some previous =>
      let id ← nextId current route.name
      let graph ← compile id route (some previous)
      save id.text graph
      if id ≠ current then discard (remove current)
      return { id := id, graph := graph }

/-- Removes a route. -/
def delete (id : RouteId) : FleetM Unit := do
  if ← remove id then return
  else throw (.notFound id)

/-- The route under an identity, if there is one. -/
def get? (id : RouteId) : FleetM (Option StoredRoute) := do
  return (← load id).map fun graph => { id := id, graph := graph }

/-! ## All routes -/

/-- The routes under some identities; those that are gone are left out. -/
def loadAll : List RouteId → FleetM (List StoredRoute)
  | [] => return []
  | id :: rest => do
    match ← load id with
    | none => loadAll rest
    | some graph => return { id := id, graph := graph } :: (← loadAll rest)

/-- All routes, in the order of their identities' files. One that cannot be read fails the whole. -/
def list : FleetM (List StoredRoute) := do
  loadAll (← look (·.list))

/-- What an operator is shown of a stored route. -/
def describe (r : StoredRoute) : FleetM Route := fun fleet =>
  (r.describe.mapError .projection, fleet)

/-- What an operator is shown of all routes. -/
def descriptions : FleetM (List Route) := do
  (← list).mapM describe

end Fleet

end RouteFleet
