import RouteFleet.Graph.Basic

/-! # Editing graphs

References are attached to and detached from routers; references that lead nowhere are found; and
all that is named after one identity is moved over to another.
-/

namespace RouteFleet

open Text

/-! ## Attaching and detaching -/

namespace Router

/-- Puts a reference at the end of the list. -/
def attach (r : Router) (reference : String) : Router :=
  { r with middlewares := some (r.refs ++ [reference]) }

/-- The references that do not speak of `name`. -/
def refsWithout (r : Router) (name : String) : List String :=
  r.refs.filter fun ref => refName ref ≠ name

/-- A list that is there only if it is not empty. -/
def nonEmpty? (l : List String) : Option (List String) := if l.isEmpty then none else some l

/-- Takes all references to `name` off the list. A list that becomes empty by it is no longer
there; a list that was empty stays. -/
def detach (r : Router) (name : String) : Router :=
  if r.hasMiddleware name then { r with middlewares := nonEmpty? (r.refsWithout name) } else r

/-- The router with its TLS block, if it has one, pointed at a certificate resolver. -/
def withCertResolver (r : Router) (name : String) : Router :=
  match r.tls with
  | some tls => { r with tls := some { tls with certResolver := some name } }
  | none => r

end Router

namespace Graph

/-- Edits each router. -/
def mapRouters (g : Graph) (edit : Router → Router) : Graph :=
  { g with http := { g.http with routers := g.http.routers.map edit } }

/-! ## Looking at references -/

/-- Whether some router passes the middleware `name`. -/
def anyRouterHas (g : Graph) (name : String) : Bool :=
  g.http.routers.values.any (·.hasMiddleware name)

/-- The references of one router that lead nowhere: to a middleware that neither the graph defines
nor `external` names, or to a service that the graph does not define. -/
def danglingOf (g : Graph) (external : List String) (r : Router) : List String :=
  r.refs.filter (fun ref =>
    !g.http.middlewares.contains (refName ref) && !external.contains (refName ref)) ++
  (match r.service with
    | some service => if g.http.services.contains (refName service) then [] else [service]
    | none => [])

/-- The references that lead nowhere, router by router. -/
def dangling (g : Graph) (external : List String) : List String :=
  g.http.routers.values.flatMap (g.danglingOf external)

end Graph

/-! ## Renaming -/

/-- A name that is `old`, or `old` with a hyphen and more after it, with `new` in its place. -/
def renameKey (old new : RouteId) (key : String) : String :=
  if key = old.text then new.text
  else match stripLead? old.text key with
  | some rest => if beginsWith "-" rest then new.text ++ rest else key
  | none => key

/-- A reference whose name is renamed; what qualifies it stays. -/
def renameRef (old new : RouteId) (reference : String) : String :=
  match splitLast '@' reference with
  | some (name, provider) => renameKey old new name ++ "@" ++ provider
  | none => renameKey old new reference

/-- A router whose references are renamed. -/
def Router.rename (old new : RouteId) (r : Router) : Router :=
  { r with
    service := r.service.map (renameRef old new)
    middlewares := r.middlewares.map (List.map (renameRef old new)) }

/-- A dictionary whose keys are renamed. Of entries that come to have one key, the one whose old
key is greatest stays. -/
def Dict.renameKeys {α : Type} (old new : RouteId) (d : Dict α) : Dict α :=
  Dict.ofList (d.entries.map fun e => (renameKey old new e.1, e.2))

/-- Moves all that is named after `old` over to `new`: keys and references. -/
def Graph.rename (g : Graph) (old new : RouteId) : Graph :=
  { g with http := { g.http with
    routers := (g.http.routers.map (Router.rename old new)).renameKeys old new
    services := g.http.services.renameKeys old new
    middlewares := g.http.middlewares.renameKeys old new } }

end RouteFleet
