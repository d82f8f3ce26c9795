import RouteFleet.Proofs.Graph.Commute
import RouteFleet.Proofs.Graph.Named
import RouteFleet.Proofs.List
import RouteFleet.Proofs.Passage

/-! # Editing instead of compiling again

What the edits of a whole fleet do to a compiled graph is what compiling does with the other settings. To
point the graph at a certificate resolver is to compile the route with that resolver
(`Compiler.pointAt_graphOf`), and to detach forward authentication is to compile the route without it
(`Compiler.detach_graphOf`). To attach it is to compile the route with it, but that the reference comes to
stand last and not where compiling puts it (`Compiler.attach_graphOf`).

The reference to forward authentication stands between references that do not depend on it
(`Compiler.get?_routers_around`), and the lists of names around it are all that the proofs look at.

Main statement: `Compiler.recompile_edits`.
-/

namespace RouteFleet

open SharedMiddlewares

/-! ## Up to the order of references -/

/-- Whether two routers are the same but for the order of their references. -/
structure Router.SameUpToOrder (r r' : Router) : Prop where
  middlewares : Option.Rel List.Perm r.middlewares r'.middlewares
  rest : { r with middlewares := r'.middlewares } = r'

/-- Whether two graphs are the same but for the order of references of their routers. -/
structure Graph.SameUpToOrder (g g' : Graph) : Prop where
  routers : ∀ k, Option.Rel Router.SameUpToOrder (g.http.routers.get? k) (g'.http.routers.get? k)
  rest : { g with http := { g.http with routers := g'.http.routers } } = g'

/-! ## Routers that refer to some names -/

namespace Router

variable (r : Router) {names : List String}

/-- A router that refers to some names. -/
def withNames (r : Router) (names : List String) : Router :=
  { r with middlewares := Compiler.listIfAny (names.map fileRef) }

@[simp] theorem refs_withNames : (r.withNames names).refs = names.map fileRef :=
  Compiler.getD_listIfAny _

theorem hasMiddleware_withNames {name : String} :
    (r.withNames names).hasMiddleware name = true ↔ name ∈ names :=
  hasMiddleware_iff (refs_withNames r) name

theorem detach_withNames (name : String) :
    (r.withNames names).detach name = r.withNames (names.filter (· ≠ name)) := by
  have hfilter : (names.map fileRef).filter (fun ref => decide (refName ref ≠ name)) =
      (names.filter (· ≠ name)).map fileRef := by
    rw [List.filter_map]
    refine congrArg (List.map fileRef) (List.filter_congr fun other _ => ?_)
    rw [Function.comp_apply, refName_fileRef]
  rw [detach]
  split
  · rw [refsWithout, refs_withNames, hfilter]
    rfl
  · rename_i hnone
    rw [filter_ne_eq_self (mt (hasMiddleware_withNames r).mpr hnone)]

theorem withForwardAuth_withNames (h : forwardAuthName ∉ names) :
    Fleet.withForwardAuth (r.withNames names) = r.withNames (names ++ [forwardAuthName]) := by
  rw [Fleet.withForwardAuth, if_neg (mt (hasMiddleware_withNames r).mp h), attach, refs_withNames,
    withNames, withNames, List.map_append]
  cases names <;> rfl

theorem sameUpToOrder_withNames {names' : List String} (h : names.Perm names') :
    (r.withNames names).SameUpToOrder (r.withNames names') := by
  refine ⟨?_, rfl⟩
  rw [withNames, withNames]
  cases names with
  | nil =>
    obtain rfl := h.nil_eq
    exact .none
  | cons name names =>
    cases names' with
    | nil => exact absurd h.length_eq (by simp)
    | cons name' names' => exact .some (h.map fileRef)

end Router

/-! ## Names around forward authentication -/

/-- Some names, with forward authentication between them or without it. -/
def namesAround (lead own : List String) (forwardAuth : Bool) : List String :=
  lead ++ (if forwardAuth then [forwardAuthName] else []) ++ own

section Around

variable {lead own : List String} (hlead : forwardAuthName ∉ lead) (hown : forwardAuthName ∉ own)

include hlead hown

theorem notMem_namesAround : forwardAuthName ∉ namesAround lead own false := by
  simp [namesAround, hlead, hown]

theorem filter_namesAround (forwardAuth : Bool) :
    (namesAround lead own forwardAuth).filter (· ≠ forwardAuthName) = namesAround lead own false := by
  rw [namesAround, namesAround, List.filter_append, List.filter_append, filter_ne_eq_self hlead,
    filter_ne_eq_self hown]
  cases forwardAuth <;> rfl

end Around

/-- Forward authentication at the end may as well stand in between. -/
theorem perm_namesAround (lead own : List String) :
    (namesAround lead own false ++ [forwardAuthName]).Perm (namesAround lead own true) := by
  simp only [namesAround, Bool.false_eq_true, if_false, if_true, List.append_nil, List.append_assoc]
  exact List.perm_append_comm.append_left lead

namespace Compiler

variable (c : Compiler) (id : RouteId) (route : Route) (users : List String)

/-! ## Compiled routers -/

section Routers

variable (forwardAuth : Bool) (headers auth ips : List (String × Middleware))

/-- What the router for unencrypted requests refers to after forward authentication. -/
def plainOwn (route : Route) (headers auth ips : List (String × Middleware)) : List String :=
  headers.map (·.1) ++ (if route.https then [] else auth.map (·.1)) ++ ips.map (·.1)

/-- What the router for encrypted requests refers to after forward authentication. -/
def secureOwn (headers auth ips : List (String × Middleware)) : List String :=
  headers.map (·.1) ++ auth.map (·.1) ++ ips.map (·.1)

theorem plainRouter_around : plainRouter id { route with forwardAuth } headers auth ips =
    (plainRouter id route headers auth ips).withNames
      (namesAround (if route.https && route.forceTls then [redirect] else [])
        (plainOwn route headers auth ips) forwardAuth) := by
  have hnames : namesAround (if route.https && route.forceTls then [redirect] else [])
      (plainOwn route headers auth ips) forwardAuth =
        plainNames { route with forwardAuth } headers auth ips := by
    simp only [namesAround, plainOwn, plainNames, List.append_assoc]
  rw [hnames, Router.withNames, ← middlewares_plainRouter _ id]
  rfl

theorem secureRouter_around : c.secureRouter id { route with forwardAuth } headers auth ips =
    (c.secureRouter id route headers auth ips).withNames
      (namesAround (if route.hsts then [hsts] else []) (secureOwn headers auth ips) forwardAuth) := by
  have hnames : namesAround (if route.hsts then [hsts] else []) (secureOwn headers auth ips) forwardAuth =
      secureNames { route with forwardAuth } headers auth ips := by
    simp only [namesAround, secureOwn, secureNames, List.append_assoc]
  rw [hnames, Router.withNames, ← middlewares_secureRouter c _ id]
  rfl

end Routers

/-- A compiled router refers to forward authentication between names that do not depend on it, and is else
the same with and without it. -/
theorem get?_routers_around (k : String) :
    (∀ forwardAuth, (c.graphOf id { route with forwardAuth } users).http.routers.get? k = none) ∨
    ∃ r lead own, forwardAuthName ∉ lead ∧ forwardAuthName ∉ own ∧
      ∀ forwardAuth, (c.graphOf id { route with forwardAuth } users).http.routers.get? k =
        some (Router.withNames r (namesAround lead own forwardAuth)) := by
  obtain ⟨hheaders, hauth, hips⟩ := c.wellKnown_notMem_own route id users
    (by decide : forwardAuthName ∈ wellKnown)
  have hlead : ∀ (condition : Bool), ∀ name ∈ [redirect, hsts],
      forwardAuthName ∉ (if condition then [name] else []) := by decide
  by_cases hk : k = id.httpRouter
  · refine .inr ⟨plainRouter id route (c.headersMiddleware id route) (basicAuthMiddleware id users)
      (ipMiddleware id route), if route.https && route.forceTls then [redirect] else [],
      plainOwn route (c.headersMiddleware id route) (basicAuthMiddleware id users) (ipMiddleware id route),
      hlead _ redirect (by decide), ?_, fun forwardAuth => ?_⟩
    · rw [plainOwn]
      cases route.https <;> simp [hheaders, hauth, hips]
    · rw [get?_routers, if_pos hk, plainRouter_around]
      rfl
  · by_cases hk' : k = id.text ∧ route.https = true
    · refine .inr ⟨c.secureRouter id route (c.headersMiddleware id route) (basicAuthMiddleware id users)
        (ipMiddleware id route), if route.hsts then [hsts] else [],
        secureOwn (c.headersMiddleware id route) (basicAuthMiddleware id users) (ipMiddleware id route),
        hlead _ hsts (by decide), ?_, fun forwardAuth => ?_⟩
      · simp [secureOwn, hheaders, hauth, hips]
      · rw [get?_routers, if_neg hk, if_pos hk', secureRouter_around]
        rfl
    · exact .inl fun forwardAuth => by rw [get?_routers, if_neg hk, if_neg hk']

/-! ## Edited graphs -/

/-- To detach forward authentication is to compile the route without it. -/
theorem detach_graphOf : Fleet.changeForwardAuth .detach (c.graphOf id route users) =
    c.graphOf id { route with forwardAuth := false } users := by
  have hrouters : (c.graphOf id route users).http.routers.map (·.detach forwardAuthName) =
      (c.graphOf id { route with forwardAuth := false } users).http.routers := by
    refine Dict.ext_get? fun k => ?_
    rw [Dict.get?_map]
    rcases c.get?_routers_around id route users k with hnone | ⟨r, lead, own, hlead, hown, hsome⟩
    · rw [hnone false, hnone route.forwardAuth]
      rfl
    · rw [hsome false, hsome route.forwardAuth, Option.map_some, Router.detach_withNames,
        filter_namesAround hlead hown]
  rw [Fleet.changeForwardAuth, Graph.mapRouters, hrouters]
  rfl

/-- To attach forward authentication is to compile the route with it, up to the place of the reference. -/
theorem attach_graphOf :
    (Fleet.changeForwardAuth .attach (c.graphOf id { route with forwardAuth := false } users)).SameUpToOrder
      (c.graphOf id { route with forwardAuth := true } users) := by
  refine ⟨fun k => ?_, rfl⟩
  rw [Fleet.changeForwardAuth, Graph.mapRouters, Dict.get?_map]
  rcases c.get?_routers_around id route users k with hnone | ⟨r, lead, own, hlead, hown, hsome⟩
  · rw [hnone false, hnone true]
    exact .none
  · rw [hsome false, hsome true, Option.map_some,
      Router.withForwardAuth_withNames r (notMem_namesAround hlead hown)]
    exact .some (r.sameUpToOrder_withNames (perm_namesAround lead own))

/-- To attach forward authentication where it was not leaves one reference to it. -/
theorem count_attach_graphOf {r : Router} (h : r ∈ (Fleet.changeForwardAuth .attach
    (c.graphOf id { route with forwardAuth := false } users)).http.routers.values) :
    (r.refs.map refName).count forwardAuthName = 1 := by
  obtain ⟨r₀, hr₀, rfl⟩ := Graph.mem_routers_mapRouters.mp h
  obtain ⟨k, hk⟩ := Dict.mem_values_iff.mp hr₀
  rcases c.get?_routers_around id route users k with hnone | ⟨r, lead, own, hlead, hown, hsome⟩
  · exact nomatch (hnone false).symm.trans hk
  · obtain rfl := Option.some.inj ((hsome false).symm.trans hk)
    rw [Router.withForwardAuth_withNames r (notMem_namesAround hlead hown),
      map_refName_refs (Router.refs_withNames r), List.count_append,
      List.count_eq_zero_of_not_mem (notMem_namesAround hlead hown), List.count_singleton_self]

/-- To point a graph at a certificate resolver is to compile the route with that resolver. -/
theorem pointAt_graphOf {name : String} (hname : name ≠ "") :
    Fleet.pointAt name (c.graphOf id route users) =
      graphOf { c with certResolver := name } id route users := by
  have hrouters : (c.graphOf id route users).http.routers.map (·.withCertResolver name) =
      (graphOf { c with certResolver := name } id route users).http.routers := by
    refine Dict.ext_get? fun k => ?_
    rw [Dict.get?_map, get?_routers, get?_routers]
    split
    · rfl
    · split
      · simp only [Option.map_some, secureRouter, Router.withCertResolver, tls, if_neg hname]
        rfl
      · rfl
  rw [Fleet.pointAt, Graph.mapRouters, hrouters]
  rfl

/-- With a hasher that takes the passwords of a route, the route is compiled whatever is stored of it, and
so it is with another certificate resolver and with and without forward authentication. The edits of a
fleet come to the same: a resolver that has a name, and no forward authentication, make of what was compiled
just what is compiled with them; forward authentication makes it up to the order of references, of which
one is to it. -/
theorem recompile_edits (c : Compiler) (id : RouteId) (route : Route) (previous : Option Graph)
    (hash : String → String)
    (hhash : ∀ e ∈ route.activeCredentials, c.hasher e.password = .ok (hash e.password)) :
    ∃ g on off, c.recompile id route previous = .ok g ∧
      c.recompile id { route with forwardAuth := true } previous = .ok on ∧
      c.recompile id { route with forwardAuth := false } previous = .ok off ∧
      (∀ name, name ≠ "" → Compiler.recompile { c with certResolver := name } id route previous =
        .ok (Fleet.pointAt name g)) ∧
      Fleet.changeForwardAuth .detach g = off ∧
      (Fleet.changeForwardAuth .attach off).SameUpToOrder on ∧
      ∀ r ∈ (Fleet.changeForwardAuth .attach off).http.routers.values,
        (r.refs.map refName).count forwardAuthName = 1 := by
  obtain ⟨users, husers⟩ := exists_hashCredentials (storedIn previous) hhash
  have hmade : ∀ forwardAuth, c.recompile id { route with forwardAuth } previous =
      .ok (c.graphOf id { route with forwardAuth } users) := fun forwardAuth =>
    recompile_eq_ok_iff.mpr ⟨users, husers, rfl⟩
  refine ⟨_, _, _, hmade route.forwardAuth, hmade true, hmade false, fun name hname => ?_,
    c.detach_graphOf id route users, c.attach_graphOf id route users,
    fun r hr => c.count_attach_graphOf id route users hr⟩
  -- Users are hashed the same way whatever the resolver is.
  have heach := hashCredentials_eq_ok_iff.mp husers
  have husers' : hashCredentials { c with certResolver := name } (storedIn previous)
      route.activeCredentials = .ok users := hashCredentials_eq_ok_iff.mpr heach
  exact recompile_eq_ok_iff.mpr ⟨users, husers', c.pointAt_graphOf id route users hname⟩

theorem recompile_edits_crowdedRoute :
    (∀ e ∈ crowdedRoute.activeCredentials, Hasher.marking e.password = .ok ("$static$" ++ e.password)) ∧
    ∃ g on off,
      Compiler.recompile ⟨"", Hasher.marking, none⟩ ⟨"sys"⟩ { crowdedRoute with https := true } none = .ok g ∧
      Compiler.recompile ⟨"", Hasher.marking, none⟩ ⟨"sys"⟩
        { crowdedRoute with https := true, forwardAuth := true } none = .ok on ∧
      Compiler.recompile ⟨"", Hasher.marking, none⟩ ⟨"sys"⟩
        { crowdedRoute with https := true, forwardAuth := false } none = .ok off ∧
      Compiler.recompile ⟨"dns", Hasher.marking, none⟩ ⟨"sys"⟩ { crowdedRoute with https := true } none =
        .ok (Fleet.pointAt "dns" g) ∧
      Fleet.changeForwardAuth .detach g = off ∧
      (Fleet.changeForwardAuth .attach off).SameUpToOrder on := by
  have hhash : ∀ e ∈ crowdedRoute.activeCredentials,
      Hasher.marking e.password = .ok ("$static$" ++ e.password) := fun _ _ => rfl
  obtain ⟨g, on, off, hg, hon, hoff, hresolver, hdetach, hattach, -⟩ :=
    recompile_edits ⟨"", Hasher.marking, none⟩ ⟨"sys"⟩ { crowdedRoute with https := true } none
      (fun p => "$static$" ++ p) hhash
  exact ⟨hhash, g, on, off, hg, hon, hoff, hresolver "dns" (by decide), hdetach, hattach⟩

end Compiler

end RouteFleet
