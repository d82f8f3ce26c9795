import RouteFleet.Proofs.Graph.Edit
import RouteFleet.Proofs.Graph.Managed

/-! # Graphs of routes

`Graph.BelongsTo g id` says what is true of the graph of a route that is filed under `id`: its keys are
made from the identity, its references lead somewhere, its own middlewares are passed by some router.
Such a graph shows a route (`Graph.BelongsTo.project`) and no reference in it dangles
(`Graph.BelongsTo.dangling_eq_nil`).

Every compiled graph is such (`Compiler.belongsTo_graphOf`). Edits of routers that leave services alone
and touch only references to shared middlewares keep it (`Graph.BelongsTo.mapRouters`), and both edits of
a whole fleet are of this kind.
-/

namespace RouteFleet

/-- What is true of the graph of a route that is filed under an identity. -/
structure Graph.BelongsTo (g : Graph) (id : RouteId) : Prop where
  managed : g.Managed
  routerKey : ∀ k r, g.http.routers.get? k = some r → k = id.text ∨ k = id.httpRouter
  plainRouter : ∃ r, g.http.routers.get? id.httpRouter = some r
  service : ∀ r ∈ g.http.routers.values, r.service = some (fileRef id.text)
  reference : ∀ r ∈ g.http.routers.values, ∀ ref ∈ r.refs,
    refName ref ∈ SharedMiddlewares.wellKnown ∨ g.http.middlewares.contains (refName ref) = true
  services : ∃ s server, g.http.services = Dict.ofList [(id.text, s)] ∧
    Graph.firstServer? s = some server
  middlewareKey : ∀ k m, g.http.middlewares.get? k = some m →
    k ∈ RouteId.ownKinds.map id.middleware ∧ g.anyRouterHas k = true

namespace Graph.BelongsTo

variable {g : Graph} {id : RouteId}

theorem get?_services (h : g.BelongsTo id) : ∃ s server,
    g.http.services.get? id.text = some s ∧ Graph.firstServer? s = some server := by
  obtain ⟨s, server, hs, hserver⟩ := h.services
  refine ⟨s, server, ?_, hserver⟩
  rw [hs, Dict.get?_ofList]
  simp

theorem keys_services (h : g.BelongsTo id) : g.http.services.keys = [id.text] := by
  obtain ⟨s, server, hs, -⟩ := h.services
  rw [hs]
  rfl

/-- No reference dangles. -/
theorem dangling_eq_nil (h : g.BelongsTo id) : g.dangling SharedMiddlewares.wellKnown = [] := by
  rw [Graph.dangling_eq_nil_iff]
  intro r hr
  refine ⟨h.reference r hr, fun service hservice => ?_⟩
  obtain ⟨s, -, hs, -⟩ := h.get?_services
  obtain rfl := Option.some.inj ((h.service r hr).symm.trans hservice)
  rw [refName_fileRef]
  exact Dict.contains_iff.mpr ⟨s, hs⟩

/-- The graph shows a route under the identity. -/
theorem project (h : g.BelongsTo id) : ∃ route, g.project id = .ok route ∧ route.name = id.name := by
  obtain ⟨r, hr⟩ := h.plainRouter
  obtain ⟨s, server, hs, hserver⟩ := h.get?_services
  have hservice : (r.service.map refName).getD id.text = id.text := by
    rw [h.service r (Dict.mem_values_iff.mpr ⟨_, hr⟩), Option.map_some, Option.getD_some,
      refName_fileRef]
  simp only [Graph.project, hr, Option.some_or, hservice, hs, hserver]
  exact ⟨_, rfl, rfl⟩

end Graph.BelongsTo

/-! ## Compiled graphs -/

namespace Compiler

variable (c : Compiler) (id : RouteId) (route : Route) (users : List String)

/-- The router that passes the route's own middlewares: that for encrypted requests, if there is
one. -/
theorem anyRouterHas_own {k : String} {m : Middleware}
    (h : (k, m) ∈ c.ownMiddlewares id route users) : (c.graphOf id route users).anyRouterHas k = true := by
  have hkey : k ∈ (c.headersMiddleware id route).map (·.1) ∨
      k ∈ (basicAuthMiddleware id users).map (·.1) ∨ k ∈ (ipMiddleware id route).map (·.1) := by
    rcases (c.mem_ownMiddlewares_iff id route users).mp h with h | h | h
    · exact .inl (List.mem_map.mpr ⟨_, h, rfl⟩)
    · exact .inr (.inl (List.mem_map.mpr ⟨_, h, rfl⟩))
    · exact .inr (.inr (List.mem_map.mpr ⟨_, h, rfl⟩))
  rw [Graph.anyRouterHas, List.any_eq_true]
  cases hhttps : route.https with
  | false =>
    refine ⟨_, Dict.mem_values_iff.mpr ⟨_, c.get?_httpRouter id route users⟩, ?_⟩
    rw [plain_hasMiddleware_iff, plainNames, hhttps]
    simp only [List.mem_append, Bool.false_eq_true, if_false]
    rcases hkey with hkey | hkey | hkey
    · exact .inl (.inl (.inr hkey))
    · exact .inl (.inr hkey)
    · exact .inr hkey
  | true =>
    have hrouter := c.get?_secureRouter id route users
    rw [hhttps, if_pos rfl] at hrouter
    refine ⟨_, Dict.mem_values_iff.mpr ⟨_, hrouter⟩, ?_⟩
    rw [secure_hasMiddleware_iff, secureNames]
    simp only [List.mem_append]
    rcases hkey with hkey | hkey | hkey
    · exact .inl (.inl (.inr hkey))
    · exact .inl (.inr hkey)
    · exact .inr hkey

/-- A name that a compiled router refers to is shared, or the key of one of the route's own
middlewares. -/
theorem mem_names {route : Route} {names : List String}
    (h : names = plainNames route (c.headersMiddleware id route) (basicAuthMiddleware id users)
        (ipMiddleware id route) ∨
      names = secureNames route (c.headersMiddleware id route) (basicAuthMiddleware id users)
        (ipMiddleware id route)) {name : String} (hname : name ∈ names) :
    name ∈ SharedMiddlewares.wellKnown ∨
      name ∈ (c.ownMiddlewares id route users).map (·.1) := by
  have hshared : ∀ (condition : Bool) (shared : String), shared ∈ SharedMiddlewares.wellKnown →
      name ∈ (if condition then [shared] else []) → name ∈ SharedMiddlewares.wellKnown :=
    fun condition shared hmem hif => List.mem_singleton.mp (List.mem_ite_nil_right.mp hif).2 ▸ hmem
  rw [ownMiddlewares, List.map_append, List.map_append, List.mem_append, List.mem_append]
  rcases h with rfl | rfl
  · simp only [plainNames, List.mem_append] at hname
    rcases hname with (((hname | hname) | hname) | hname) | hname
    · exact .inl (hshared _ _ (by decide) hname)
    · exact .inl (hshared _ _ (by decide) hname)
    · exact .inr (.inl (.inl hname))
    · exact .inr (.inl (.inr (List.mem_ite_nil_left.mp hname).2))
    · exact .inr (.inr hname)
  · simp only [secureNames, List.mem_append] at hname
    rcases hname with (((hname | hname) | hname) | hname) | hname
    · exact .inl (hshared _ _ (by decide) hname)
    · exact .inl (hshared _ _ (by decide) hname)
    · exact .inr (.inl (.inl hname))
    · exact .inr (.inl (.inr hname))
    · exact .inr (.inr hname)

/-- The routers of a compiled graph. -/
theorem router_cases {k : String} {r : Router}
    (h : (c.graphOf id route users).http.routers.get? k = some r) :
    (k = id.httpRouter ∨ k = id.text) ∧ r.service = some (fileRef id.text) ∧
      ∃ names, r.refs = names.map fileRef ∧
        (names = plainNames route (c.headersMiddleware id route) (basicAuthMiddleware id users)
            (ipMiddleware id route) ∨
          names = secureNames route (c.headersMiddleware id route) (basicAuthMiddleware id users)
            (ipMiddleware id route)) := by
  rcases (c.get?_routers_eq_some_iff id route users).mp h with ⟨hk, rfl⟩ | ⟨hk, -, rfl⟩
  · exact ⟨.inl hk, rfl, _, refs_plainRouter .., .inl rfl⟩
  · exact ⟨.inr hk, rfl, _, refs_secureRouter .., .inr rfl⟩

/-- A compiled graph belongs to the identity that it was compiled for. -/
theorem belongsTo_graphOf : (c.graphOf id route users).BelongsTo id where
  managed := c.managed_graphOf id route users
  routerKey k r hk := (c.router_cases id route users hk).1.symm
  plainRouter := ⟨_, c.get?_httpRouter id route users⟩
  service r hr := by
    obtain ⟨k, hk⟩ := Dict.mem_values_iff.mp hr
    exact (c.router_cases id route users hk).2.1
  reference r hr ref href := by
    obtain ⟨k, hk⟩ := Dict.mem_values_iff.mp hr
    obtain ⟨-, -, names, hrefs, hnames⟩ := c.router_cases id route users hk
    rw [hrefs] at href
    obtain ⟨name, hname, rfl⟩ := List.mem_map.mp href
    rw [refName_fileRef]
    refine (c.mem_names id users hnames hname).imp_right fun hown => ?_
    obtain ⟨⟨key, m⟩, hm, rfl⟩ := List.mem_map.mp hown
    exact Dict.contains_iff.mpr ⟨m, (c.get?_middlewares id route users).mpr hm⟩
  services := ⟨serviceOf route, { url := route.backend.url }, rfl, rfl⟩
  middlewareKey k m hm := by
    have hown := (c.get?_middlewares id route users).mp hm
    refine ⟨(c.map_fst_ownMiddlewares id route users).subset ?_, c.anyRouterHas_own id route users hown⟩
    exact List.mem_map.mpr ⟨_, hown, rfl⟩

end Compiler

/-! ## Edits -/

/-- Edits of routers that leave services alone and touch only references to shared middlewares. -/
structure KeepsOwn (edit : Router → Router) : Prop where
  managed : ∀ r : Router, r.Managed → (edit r).Managed
  service : ∀ r : Router, (edit r).service = r.service
  reference : ∀ (r : Router), ∀ ref ∈ (edit r).refs,
    ref ∈ r.refs ∨ refName ref ∈ SharedMiddlewares.wellKnown
  own : ∀ (r : Router) (name : String), name ∉ SharedMiddlewares.wellKnown →
    r.hasMiddleware name = true → (edit r).hasMiddleware name = true

/-- A graph still belongs to its identity after such an edit. -/
theorem Graph.BelongsTo.mapRouters {g : Graph} {id : RouteId} {edit : Router → Router}
    (h : g.BelongsTo id) (hedit : KeepsOwn edit) : (g.mapRouters edit).BelongsTo id where
  managed := by
    refine ⟨fun r hr => ?_, h.managed.services, h.managed.middlewares, h.managed.httpExtra,
      h.managed.extra⟩
    obtain ⟨r₀, hr₀, rfl⟩ := Dict.mem_values_map.mp hr
    exact hedit.managed r₀ (h.managed.routers r₀ hr₀)
  routerKey k r hk := by
    rw [Graph.mapRouters, Dict.get?_map, Option.map_eq_some_iff] at hk
    obtain ⟨r, hr, -⟩ := hk
    exact h.routerKey k r hr
  plainRouter := by
    obtain ⟨r, hr⟩ := h.plainRouter
    exact ⟨edit r, by rw [Graph.mapRouters, Dict.get?_map, hr, Option.map_some]⟩
  service r hr := by
    obtain ⟨r₀, hr₀, rfl⟩ := Dict.mem_values_map.mp hr
    exact (hedit.service r₀).trans (h.service r₀ hr₀)
  reference r hr ref href := by
    obtain ⟨r₀, hr₀, rfl⟩ := Dict.mem_values_map.mp hr
    rcases hedit.reference r₀ ref href with href | hshared
    · exact h.reference r₀ hr₀ ref href
    · exact .inl hshared
  services := h.services
  middlewareKey k m hm := by
    obtain ⟨hkind, hany⟩ := h.middlewareKey k m hm
    refine ⟨hkind, ?_⟩
    obtain ⟨kind, hmem, rfl⟩ := List.mem_map.mp hkind
    rw [Graph.anyRouterHas, List.any_eq_true] at hany ⊢
    obtain ⟨r, hr, hhas⟩ := hany
    exact ⟨edit r, Dict.mem_values_map.mpr ⟨r, hr, rfl⟩,
      hedit.own r _ (id.middleware_notMem_wellKnown hmem) hhas⟩

theorem keepsOwn_withCertResolver (name : String) : KeepsOwn (·.withCertResolver name) := by
  refine ⟨fun r h => ?_, fun r => r.service_withCertResolver name,
    fun r ref href => .inl (r.refs_withCertResolver name ▸ href), fun r k _ hhas => ?_⟩
  · refine ⟨fun tls htls => ?_, (r.extra_withCertResolver name).trans h.extra⟩
    rw [Router.tls_withCertResolver] at htls
    obtain ⟨tls₀, htls₀, rfl⟩ := Option.map_eq_some_iff.mp htls
    exact h.tls tls₀ htls₀
  · rw [Router.hasMiddleware, Router.refs_withCertResolver]
    exact hhas

theorem keepsOwn_withForwardAuth : KeepsOwn Fleet.withForwardAuth := by
  have hrefs : ∀ r : Router, (Fleet.withForwardAuth r).refs = r.refs ∨
      (Fleet.withForwardAuth r).refs = r.refs ++ [fileRef SharedMiddlewares.forwardAuthName] := by
    intro r
    rw [Fleet.withForwardAuth]
    split
    · exact .inl rfl
    · exact .inr rfl
  refine ⟨fun r h => ?_, fun r => ?_, fun r ref href => ?_, fun r name _ hhas => ?_⟩
  · rw [Fleet.withForwardAuth]
    split
    · exact h
    · exact ⟨h.tls, h.extra⟩
  · rw [Fleet.withForwardAuth]
    split <;> rfl
  · rcases hrefs r with heq | heq
    · exact .inl (heq ▸ href)
    · rw [heq, List.mem_append, List.mem_singleton] at href
      refine href.imp_right ?_
      rintro rfl
      rw [refName_fileRef]
      decide
  · rw [Router.hasMiddleware] at hhas ⊢
    rcases hrefs r with heq | heq
    · rw [heq]
      exact hhas
    · rw [heq, List.any_append, hhas, Bool.true_or]

theorem keepsOwn_detach : KeepsOwn (·.detach SharedMiddlewares.forwardAuthName) := by
  refine ⟨fun r h => ⟨r.tls_detach _ ▸ h.tls, (r.extra_detach _).trans h.extra⟩,
    fun r => r.service_detach _, fun r ref href => .inl (Router.mem_refs_detach.mp href).1,
    fun r name hname hhas => ?_⟩
  rw [Router.hasMiddleware, List.any_eq_true] at hhas ⊢
  obtain ⟨ref, href, hspeaks⟩ := hhas
  refine ⟨ref, Router.mem_refs_detach.mpr ⟨href, fun hshared => hname ?_⟩, hspeaks⟩
  rw [← of_decide_eq_true hspeaks, hshared]
  decide

theorem Graph.BelongsTo.pointAt {g : Graph} {id : RouteId} (h : g.BelongsTo id) (name : String) :
    (Fleet.pointAt name g).BelongsTo id := h.mapRouters (keepsOwn_withCertResolver name)

theorem Graph.BelongsTo.changeForwardAuth {g : Graph} {id : RouteId} (h : g.BelongsTo id)
    (change : ForwardAuthChange) : (Fleet.changeForwardAuth change g).BelongsTo id := by
  cases change with
  | attach => exact h.mapRouters keepsOwn_withForwardAuth
  | detach => exact h.mapRouters keepsOwn_detach

end RouteFleet
