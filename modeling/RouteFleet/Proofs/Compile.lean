import Mathlib.Data.List.Nodup
import RouteFleet.Compile
import RouteFleet.Graph.Edit
import RouteFleet.Proofs.Dict

/-! # What compiling makes

Look-ups in the graph that a route is compiled to. The route's own middlewares stand under three
different keys (`RouteId.middleware_inj`), none of which is a shared name
(`RouteId.middleware_notMem_wellKnown`), and a router passes exactly the middlewares that its
references name (`Router.hasMiddleware_iff`).

A route is compiled as soon as its users are hashed (`Compiler.recompile_eq_map`), so what is true of each
graph that some users are compiled to is true of what compiling returns.
-/

namespace RouteFleet

open Text

/-! ## Keys -/

namespace RouteId

theorem middleware_inj {id : RouteId} {kind kind' : String} :
    id.middleware kind = id.middleware kind' ↔ kind = kind' := by
  simp [middleware, String.ext_iff]

theorem httpRouter_ne_text (id : RouteId) : id.httpRouter ≠ id.text := by
  simp [httpRouter, String.ext_iff]

/-- The kinds of middlewares that a route may have of its own. -/
def ownKinds : List String :=
  [Compiler.headersKind, Compiler.basicAuthKind, Compiler.ipRestrictKind]

/-- A route's own middleware bears none of the shared names, since those have other endings. -/
theorem middleware_notMem_wellKnown (id : RouteId) {kind : String} (h : kind ∈ ownKinds) :
    id.middleware kind ∉ SharedMiddlewares.wellKnown := by
  have hsuffix : ∀ name ∈ SharedMiddlewares.wellKnown, ∀ k ∈ ownKinds,
      ¬ ("-" ++ k).toList <:+ name.toList := by decide
  intro hmem
  refine hsuffix _ hmem kind h ⟨id.text.toList, ?_⟩
  simp [middleware]

theorem middleware_ne_shared (id : RouteId) {kind name : String} (hkind : kind ∈ ownKinds)
    (hname : name ∈ SharedMiddlewares.wellKnown) : id.middleware kind ≠ name := fun heq =>
  id.middleware_notMem_wellKnown hkind (heq ▸ hname)

end RouteId

/-! ## References -/

namespace Router

/-- A router whose references are those of some names passes exactly these middlewares. -/
theorem hasMiddleware_iff {r : Router} {names : List String} (h : r.refs = names.map fileRef)
    (name : String) : r.hasMiddleware name = true ↔ name ∈ names := by
  simp [hasMiddleware, h, refName_fileRef]

end Router

namespace Compiler

variable (c : Compiler) (id : RouteId) (route : Route) (users : List String)

theorem getD_listIfAny (l : List String) : (listIfAny l).getD [] = l := by
  cases l <;> rfl

theorem refIf_eq_map (condition : Bool) (name : String) :
    refIf condition name = (if condition then [name] else []).map fileRef := by
  cases condition <;> rfl

theorem refsTo_eq_map (middlewares : List (String × Middleware)) :
    refsTo middlewares = (middlewares.map (·.1)).map fileRef := by
  simp [refsTo]

/-! ## Routers -/

/-- The names that the router for unencrypted requests refers to. -/
def plainNames (route : Route) (headers auth ips : List (String × Middleware)) : List String :=
  (if route.https && route.forceTls then [SharedMiddlewares.redirect] else []) ++
    (if route.forwardAuth then [SharedMiddlewares.forwardAuthName] else []) ++
    headers.map (·.1) ++ (if route.https then [] else auth.map (·.1)) ++ ips.map (·.1)

/-- The names that the router for encrypted requests refers to. -/
def secureNames (route : Route) (headers auth ips : List (String × Middleware)) : List String :=
  (if route.hsts then [SharedMiddlewares.hsts] else []) ++
    (if route.forwardAuth then [SharedMiddlewares.forwardAuthName] else []) ++
    headers.map (·.1) ++ auth.map (·.1) ++ ips.map (·.1)

theorem refs_plainRouter (headers auth ips : List (String × Middleware)) :
    (plainRouter id route headers auth ips).refs =
      (plainNames route headers auth ips).map fileRef := by
  rw [Router.refs, plainRouter, getD_listIfAny]
  simp only [refIf_eq_map, refsTo_eq_map, plainNames, List.map_append]
  cases route.https <;> simp

theorem refs_secureRouter (headers auth ips : List (String × Middleware)) :
    (c.secureRouter id route headers auth ips).refs =
      (secureNames route headers auth ips).map fileRef := by
  rw [Router.refs, secureRouter, getD_listIfAny]
  simp only [refIf_eq_map, refsTo_eq_map, secureNames, List.map_append]

/-! ## Look-ups -/

/-- The middlewares that a route has of its own, with their keys. -/
def ownMiddlewares : List (String × Middleware) :=
  c.headersMiddleware id route ++ basicAuthMiddleware id users ++ ipMiddleware id route

theorem mem_ownMiddlewares_iff {k : String} {m : Middleware} :
    (k, m) ∈ c.ownMiddlewares id route users ↔
      (k, m) ∈ c.headersMiddleware id route ∨ (k, m) ∈ basicAuthMiddleware id users ∨
        (k, m) ∈ ipMiddleware id route := by
  simp [ownMiddlewares]

theorem map_fst_headersMiddleware :
    ((c.headersMiddleware id route).map (·.1)).Sublist [id.middleware headersKind] := by
  unfold headersMiddleware
  split <;> simp

theorem map_fst_basicAuthMiddleware :
    ((basicAuthMiddleware id users).map (·.1)).Sublist [id.middleware basicAuthKind] := by
  unfold basicAuthMiddleware
  split <;> simp

theorem map_fst_ipMiddleware :
    ((ipMiddleware id route).map (·.1)).Sublist [id.middleware ipRestrictKind] := by
  unfold ipMiddleware
  split
  · simp
  · split <;> simp

/-- The keys of a route's own middlewares are among three, each of which is there at most once. -/
theorem map_fst_ownMiddlewares :
    ((c.ownMiddlewares id route users).map (·.1)).Sublist (RouteId.ownKinds.map id.middleware) := by
  rw [ownMiddlewares, List.map_append, List.map_append]
  exact ((c.map_fst_headersMiddleware id route).append
    (map_fst_basicAuthMiddleware id users)).append (map_fst_ipMiddleware id route)

theorem nodup_ownMiddlewares : ((c.ownMiddlewares id route users).map (·.1)).Nodup := by
  refine (c.map_fst_ownMiddlewares id route users).nodup (List.Nodup.map ?_ (by decide))
  exact fun _ _ h => RouteId.middleware_inj.mp h

theorem get?_middlewares {k : String} {m : Middleware} :
    (c.graphOf id route users).http.middlewares.get? k = some m ↔
      (k, m) ∈ c.ownMiddlewares id route users :=
  Dict.get?_ofList_iff (c.nodup_ownMiddlewares id route users)

theorem mem_headersMiddleware_iff {k : String} {m : Middleware} :
    (k, m) ∈ c.headersMiddleware id route ↔ (c.resolveHeaders route).isEmpty = false ∧
      k = id.middleware headersKind ∧
      m = .headers { customRequestHeaders := some (c.resolveHeaders route) } := by
  cases h : (c.resolveHeaders route).isEmpty <;> simp [headersMiddleware, h]

theorem mem_basicAuthMiddleware_iff {k : String} {m : Middleware} :
    (k, m) ∈ basicAuthMiddleware id users ↔ users ≠ [] ∧
      k = id.middleware basicAuthKind ∧ m = .basicAuth { users := some users } := by
  cases users <;> simp [basicAuthMiddleware]

theorem mem_ipMiddleware_iff {k : String} {m : Middleware} :
    (k, m) ∈ ipMiddleware id route ↔ ∃ r, route.ipRestriction = some r ∧ r.activeIps ≠ [] ∧
      k = id.middleware ipRestrictKind ∧
      m = .ipWhiteList { sourceRange := some r.activeIps, ipStrategy := depthOf r.depth } := by
  cases h : route.ipRestriction with
  | none => simp [ipMiddleware, h]
  | some r => by_cases hips : r.activeIps = [] <;> simp [ipMiddleware, h, hips]

theorem get?_headersMiddleware :
    (c.graphOf id route users).http.middlewares.get? (id.middleware headersKind) =
      if (c.resolveHeaders route).isEmpty then none
      else some (.headers { customRequestHeaders := some (c.resolveHeaders route) }) := by
  refine Option.ext fun m => ?_
  rw [get?_middlewares, mem_ownMiddlewares_iff, mem_headersMiddleware_iff,
    mem_basicAuthMiddleware_iff, mem_ipMiddleware_iff]
  have hauth : headersKind ≠ basicAuthKind := by decide
  have hip : headersKind ≠ ipRestrictKind := by decide
  cases (c.resolveHeaders route).isEmpty with
  | true => simp [RouteId.middleware_inj, hauth, hip]
  | false =>
    simp only [RouteId.middleware_inj, hauth, hip, true_and, false_and, and_false, or_false,
      exists_false, Bool.false_eq_true, if_false, Option.some.injEq]
    exact eq_comm

theorem get?_basicAuthMiddleware :
    (c.graphOf id route users).http.middlewares.get? (id.middleware basicAuthKind) =
      if users.isEmpty then none else some (.basicAuth { users := some users }) := by
  refine Option.ext fun m => ?_
  rw [get?_middlewares, mem_ownMiddlewares_iff, mem_headersMiddleware_iff,
    mem_basicAuthMiddleware_iff, mem_ipMiddleware_iff]
  have hheaders : basicAuthKind ≠ headersKind := by decide
  have hip : basicAuthKind ≠ ipRestrictKind := by decide
  cases users with
  | nil => simp [RouteId.middleware_inj, hheaders, hip]
  | cons user users =>
    simp [RouteId.middleware_inj, hheaders, hip, -Middleware.basicAuth.injEq]
    exact eq_comm

theorem get?_ipMiddleware :
    (c.graphOf id route users).http.middlewares.get? (id.middleware ipRestrictKind) =
      route.ipRestriction.bind fun r => if r.activeIps.isEmpty then none else
        some (.ipWhiteList { sourceRange := some r.activeIps, ipStrategy := depthOf r.depth }) := by
  refine Option.ext fun m => ?_
  rw [get?_middlewares, mem_ownMiddlewares_iff, mem_headersMiddleware_iff,
    mem_basicAuthMiddleware_iff, mem_ipMiddleware_iff]
  have hheaders : ipRestrictKind ≠ headersKind := by decide
  have hauth : ipRestrictKind ≠ basicAuthKind := by decide
  cases route.ipRestriction with
  | none => simp [RouteId.middleware_inj, hheaders, hauth]
  | some r =>
    by_cases h : r.activeIps = []
    · simp [RouteId.middleware_inj, hheaders, hauth, h]
    · simp [RouteId.middleware_inj, hheaders, hauth, h]
      exact eq_comm

theorem get?_services (k : String) :
    (c.graphOf id route users).http.services.get? k =
      if k = id.text then some (serviceOf route) else none := by
  rw [graphOf, Dict.get?_ofList]
  by_cases h : k = id.text
  · simp [h]
  · simp [h, Ne.symm h]

/-- The graph's routers: one for unencrypted requests and, if there are some, one for encrypted
ones. -/
theorem get?_routers (k : String) :
    (c.graphOf id route users).http.routers.get? k =
      if k = id.httpRouter then
        some (plainRouter id route (c.headersMiddleware id route) (basicAuthMiddleware id users)
          (ipMiddleware id route))
      else if k = id.text ∧ route.https = true then
        some (c.secureRouter id route (c.headersMiddleware id route)
          (basicAuthMiddleware id users) (ipMiddleware id route))
      else none := by
  have hne := id.httpRouter_ne_text
  cases hhttps : route.https with
  | false =>
    simp only [graphOf, hhttps, Dict.get?_ofList]
    by_cases hk : k = id.httpRouter <;> simp [hk, eq_comm]
  | true =>
    simp only [graphOf, hhttps, Dict.get?_ofList]
    by_cases hk : k = id.httpRouter
    · simp [hk, Ne.symm hne]
    · by_cases hk' : k = id.text
      · simp [hk', Ne.symm hne]
      · simp [hk, hk', Ne.symm hk, Ne.symm hk']

/-- A router of the graph is the one for unencrypted requests, or the one for encrypted requests of a route
that has them. -/
theorem get?_routers_eq_some_iff {k : String} {r : Router} :
    (c.graphOf id route users).http.routers.get? k = some r ↔
      (k = id.httpRouter ∧ r = plainRouter id route (c.headersMiddleware id route)
        (basicAuthMiddleware id users) (ipMiddleware id route)) ∨
      (k = id.text ∧ route.https = true ∧ r = c.secureRouter id route (c.headersMiddleware id route)
        (basicAuthMiddleware id users) (ipMiddleware id route)) := by
  have hne := id.httpRouter_ne_text
  rw [get?_routers]
  split
  · rename_i hk
    simp only [hk, hne, true_and, false_and, or_false, Option.some.injEq]
    exact eq_comm
  · rename_i hk
    split
    · rename_i hk'
      simp only [hk'.1, hk'.2, Ne.symm hne, true_and, false_and, false_or, Option.some.injEq]
      exact eq_comm
    · rename_i hk'
      simp only [hk, ← and_assoc, hk', false_and, false_or, reduceCtorEq]

theorem mem_routers_iff {r : Router} : r ∈ (c.graphOf id route users).http.routers.values ↔
    r = plainRouter id route (c.headersMiddleware id route) (basicAuthMiddleware id users)
        (ipMiddleware id route) ∨
      (route.https = true ∧ r = c.secureRouter id route (c.headersMiddleware id route)
        (basicAuthMiddleware id users) (ipMiddleware id route)) := by
  simp only [Dict.mem_values_iff, get?_routers_eq_some_iff, exists_or, exists_eq_left]

theorem get?_httpRouter : (c.graphOf id route users).http.routers.get? id.httpRouter =
    some (plainRouter id route (c.headersMiddleware id route) (basicAuthMiddleware id users)
      (ipMiddleware id route)) := by
  rw [get?_routers, if_pos rfl]

theorem get?_secureRouter : (c.graphOf id route users).http.routers.get? id.text =
    if route.https then some (c.secureRouter id route (c.headersMiddleware id route)
      (basicAuthMiddleware id users) (ipMiddleware id route)) else none := by
  rw [get?_routers, if_neg (Ne.symm id.httpRouter_ne_text)]
  simp

/-! ## Compiling -/

/-- The hashes that the graph holds which is stored of a route, by user; none if none is stored. -/
def storedIn : Option Graph → Dict String
  | some g => storedHashes g
  | none => .empty

/-- A route is compiled as soon as its users are hashed. -/
theorem recompile_eq_map (previous : Option Graph) : c.recompile id route previous =
    (c.hashCredentials (storedIn previous) route.activeCredentials).map (c.graphOf id route) := by
  cases previous <;> rfl

variable {c id route} {previous : Option Graph}

theorem recompile_eq_ok_iff {g : Graph} : c.recompile id route previous = .ok g ↔
    ∃ users, c.hashCredentials (storedIn previous) route.activeCredentials = .ok users ∧
      g = c.graphOf id route users := by
  rw [recompile_eq_map]
  cases c.hashCredentials (storedIn previous) route.activeCredentials <;> simp [Except.map, eq_comm]

theorem recompile_eq_error_iff {err : CompileError} : c.recompile id route previous = .error err ↔
    c.hashCredentials (storedIn previous) route.activeCredentials = .error err := by
  rw [recompile_eq_map]
  cases c.hashCredentials (storedIn previous) route.activeCredentials <;> simp [Except.map]

theorem exists_users_of_recompile {g : Graph} (h : c.recompile id route previous = .ok g) :
    ∃ users, g = c.graphOf id route users := by
  obtain ⟨users, -, hg⟩ := recompile_eq_ok_iff.mp h
  exact ⟨users, hg⟩

end Compiler

end RouteFleet
