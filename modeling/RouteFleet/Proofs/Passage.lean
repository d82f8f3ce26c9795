import RouteFleet.Proofs.Credentials
import RouteFleet.Proofs.Graph.Belongs
import RouteFleet.Proofs.List

/-! # What requests pass

On the way to a compiled route's server requests pass middlewares in one order (`RouteId.passOrder`), none
of them twice. What is passed is defined, what is defined is passed, and nothing else is in the graph
(`Graph.Minimal`).

The router for unencrypted requests asks for no passwords where there is one for encrypted requests. It
then sends requests there if the route forces them to be encrypted, and passes them on if not; every other
router of a route with credentials is guarded (`Router.IsGuarded`).

Main statements: `Compiler.minimal_recompile`, `Compiler.isGuarded_recompile_iff`.
-/

namespace RouteFleet

open Text

/-- The order in which requests pass middlewares: those that are shared, then the route's own. -/
def RouteId.passOrder (id : RouteId) : List String :=
  [SharedMiddlewares.redirect, SharedMiddlewares.hsts, SharedMiddlewares.forwardAuthName,
    id.middleware Compiler.headersKind, id.middleware Compiler.basicAuthKind,
    id.middleware Compiler.ipRestrictKind]

theorem RouteId.nodup_passOrder (id : RouteId) : id.passOrder.Nodup := by
  have hown : (ownKinds.map id.middleware).Nodup :=
    List.Nodup.map (fun _ _ h => middleware_inj.mp h) (by decide)
  refine List.nodup_append'.mpr ⟨(by decide : SharedMiddlewares.wellKnown.Nodup), hown, ?_⟩
  rintro _ hshared hmem
  obtain ⟨kind, hkind, rfl⟩ := List.mem_map.mp hmem
  exact id.middleware_notMem_wellKnown hkind hshared

/-- What is true of the graph that a route is compiled to under an identity. -/
structure Graph.Minimal (g : Graph) (id : RouteId) (route : Route) : Prop where
  closed : g.dangling SharedMiddlewares.wellKnown = []
  used : ∀ name ∈ g.http.middlewares.keys, g.anyRouterHas name = true
  distinct : ∀ r ∈ g.http.routers.values, (r.refs.map refName).Nodup
  qualified : ∀ r ∈ g.http.routers.values, (∀ ref ∈ r.refs, endsWith fileSuffix ref = true) ∧
    ∀ service ∈ r.service, endsWith fileSuffix service = true
  routers : ∀ k, k ∈ g.http.routers.keys ↔ k = id.httpRouter ∨ (k = id.text ∧ route.https = true)
  encrypted : ∀ k r, g.http.routers.get? k = some r → (r.tls.isSome = true ↔ k = id.text)
  alike : ∀ r ∈ g.http.routers.values,
    r.rule = Compiler.ruleOf route ∧ r.service = some (fileRef id.text)
  services : g.http.services = Dict.ofList
    [(id.text, { loadBalancer := some { servers := some [{ url := route.backend.url }] } })]
  everywhere : ∀ name ∈ [SharedMiddlewares.forwardAuthName, id.middleware Compiler.headersKind,
      id.middleware Compiler.ipRestrictKind],
    (∀ r ∈ g.http.routers.values, r.hasMiddleware name = true) ∨
      ∀ r ∈ g.http.routers.values, r.hasMiddleware name = false
  ordered : ∀ r ∈ g.http.routers.values, (r.refs.map refName).Sublist id.passOrder

/-- Whether a router asks for the passwords of a route, or sends requests on to be encrypted. -/
def Router.IsGuarded (id : RouteId) (r : Router) : Prop :=
  r.hasMiddleware (id.middleware Compiler.basicAuthKind) = true ∨
    r.hasMiddleware SharedMiddlewares.redirect = true

theorem endsWith_fileRef (name : String) : endsWith fileSuffix (fileRef name) = true := by
  simp [endsWith, fileRef, List.isSuffixOf_iff_suffix]

namespace Compiler

variable (c : Compiler) (id : RouteId) (route : Route) (users : List String)

/-! ## The order of references -/

theorem plainNames_sublist : (plainNames route (c.headersMiddleware id route)
    (basicAuthMiddleware id users) (ipMiddleware id route)).Sublist id.passOrder := by
  have hredirect := (ite_singleton_sublist (route.https && route.forceTls)
    SharedMiddlewares.redirect).trans (List.sublist_append_left _ [SharedMiddlewares.hsts])
  have hforward := ite_singleton_sublist route.forwardAuth SharedMiddlewares.forwardAuthName
  have hauth : (if route.https then [] else (basicAuthMiddleware id users).map (·.1)).Sublist
      [id.middleware basicAuthKind] := by
    split
    · exact List.nil_sublist _
    · exact map_fst_basicAuthMiddleware id users
  exact (((hredirect.append hforward).append (c.map_fst_headersMiddleware id route)).append hauth).append
    (map_fst_ipMiddleware id route)

theorem secureNames_sublist : (secureNames route (c.headersMiddleware id route)
    (basicAuthMiddleware id users) (ipMiddleware id route)).Sublist id.passOrder := by
  have hhsts := (ite_singleton_sublist route.hsts SharedMiddlewares.hsts).trans
    (List.sublist_append_right [SharedMiddlewares.redirect] _)
  have hforward := ite_singleton_sublist route.forwardAuth SharedMiddlewares.forwardAuthName
  exact (((hhsts.append hforward).append (c.map_fst_headersMiddleware id route)).append
    (map_fst_basicAuthMiddleware id users)).append (map_fst_ipMiddleware id route)

/-- The references of a compiled router are those of some names, in the order in which these are passed. -/
theorem exists_names_of_mem_routers {r : Router}
    (h : r ∈ (c.graphOf id route users).http.routers.values) :
    ∃ names : List String, r.refs = names.map fileRef ∧ names.Sublist id.passOrder := by
  rcases (c.mem_routers_iff id route users).mp h with rfl | ⟨-, rfl⟩
  · exact ⟨_, refs_plainRouter .., c.plainNames_sublist id route users⟩
  · exact ⟨_, refs_secureRouter .., c.secureNames_sublist id route users⟩

theorem map_refName_refs {r : Router} {names : List String} (h : r.refs = names.map fileRef) :
    r.refs.map refName = names := by
  rw [h, List.map_map]
  exact (List.map_congr_left fun name _ => refName_fileRef name).trans (List.map_id _)

/-! ## What all routers pass -/

/-- The two lists of names differ only in passwords and in what is shared between routers of one kind. -/
theorem mem_plainNames_iff_mem_secureNames {name : String} (hredirect : name ≠ SharedMiddlewares.redirect)
    (hhsts : name ≠ SharedMiddlewares.hsts) (hauth : name ≠ id.middleware basicAuthKind) :
    name ∈ plainNames route (c.headersMiddleware id route) (basicAuthMiddleware id users)
        (ipMiddleware id route) ↔
      name ∈ secureNames route (c.headersMiddleware id route) (basicAuthMiddleware id users)
        (ipMiddleware id route) := by
  have hlead : ∀ (condition : Bool) {shared : String}, name ≠ shared →
      name ∉ (if condition then [shared] else []) := fun _ _ hne hmem =>
    hne (List.mem_singleton.mp (List.mem_ite_nil_right.mp hmem).2)
  have husers : name ∉ (basicAuthMiddleware id users).map (·.1) := fun hmem =>
    hauth (List.mem_singleton.mp ((map_fst_basicAuthMiddleware id users).subset hmem))
  have hplain : name ∉ (if route.https then [] else (basicAuthMiddleware id users).map (·.1)) :=
    fun hmem => husers (List.mem_ite_nil_left.mp hmem).2
  simp only [plainNames, secureNames, List.mem_append, hlead _ hredirect, hlead _ hhsts, husers, hplain,
    false_or, or_false]

/-- What is neither about passwords nor shared between routers of one kind is passed by all routers or by
none. -/
theorem everywhere_of_ne {name : String} (hredirect : name ≠ SharedMiddlewares.redirect)
    (hhsts : name ≠ SharedMiddlewares.hsts) (hauth : name ≠ id.middleware basicAuthKind) :
    (∀ r ∈ (c.graphOf id route users).http.routers.values, r.hasMiddleware name = true) ∨
      ∀ r ∈ (c.graphOf id route users).http.routers.values, r.hasMiddleware name = false := by
  have hhas : ∀ r ∈ (c.graphOf id route users).http.routers.values, r.hasMiddleware name = true ↔
      name ∈ secureNames route (c.headersMiddleware id route) (basicAuthMiddleware id users)
        (ipMiddleware id route) := by
    intro r hr
    rcases (c.mem_routers_iff id route users).mp hr with rfl | ⟨-, rfl⟩
    · exact (c.plain_hasMiddleware_iff route id users name).trans
        (c.mem_plainNames_iff_mem_secureNames id route users hredirect hhsts hauth)
    · exact c.secure_hasMiddleware_iff route id users name
  by_cases hpassed : name ∈ secureNames route (c.headersMiddleware id route)
      (basicAuthMiddleware id users) (ipMiddleware id route)
  · exact .inl fun r hr => (hhas r hr).mpr hpassed
  · exact .inr fun r hr => Bool.eq_false_iff.mpr (mt (hhas r hr).mp hpassed)

/-- A compiled graph is closed, and there is nothing in it that is not used. -/
theorem minimal_graphOf : (c.graphOf id route users).Minimal id route where
  closed := (c.belongsTo_graphOf id route users).dangling_eq_nil
  used name hname := by
    obtain ⟨m, hm⟩ := Dict.mem_keys_iff.mp hname
    exact ((c.belongsTo_graphOf id route users).middlewareKey name m hm).2
  distinct r hr := by
    obtain ⟨names, hrefs, hsublist⟩ := c.exists_names_of_mem_routers id route users hr
    exact map_refName_refs hrefs ▸ hsublist.nodup id.nodup_passOrder
  qualified r hr := by
    obtain ⟨names, hrefs, -⟩ := c.exists_names_of_mem_routers id route users hr
    refine ⟨fun ref href => ?_, fun service hservice => ?_⟩
    · rw [hrefs] at href
      obtain ⟨name, -, rfl⟩ := List.mem_map.mp href
      exact endsWith_fileRef name
    · rw [(c.belongsTo_graphOf id route users).service r hr] at hservice
      exact Option.some.inj hservice ▸ endsWith_fileRef id.text
  routers k := by
    simp only [Dict.mem_keys_iff, get?_routers_eq_some_iff]
    constructor
    · rintro ⟨r, ⟨hk, -⟩ | ⟨hk, hhttps, -⟩⟩
      · exact .inl hk
      · exact .inr ⟨hk, hhttps⟩
    · rintro (hk | ⟨hk, hhttps⟩)
      · exact ⟨_, .inl ⟨hk, rfl⟩⟩
      · exact ⟨_, .inr ⟨hk, hhttps, rfl⟩⟩
  encrypted k r hr := by
    rcases (c.get?_routers_eq_some_iff id route users).mp hr with ⟨rfl, rfl⟩ | ⟨rfl, -, rfl⟩
    · exact iff_of_false (by simp [plainRouter]) id.httpRouter_ne_text
    · exact iff_of_true rfl rfl
  alike r hr := by
    rcases (c.mem_routers_iff id route users).mp hr with rfl | ⟨-, rfl⟩
    · exact ⟨rfl, rfl⟩
    · exact ⟨rfl, rfl⟩
  services := rfl
  everywhere name hname := by
    simp only [List.mem_cons, List.not_mem_nil, or_false] at hname
    rcases hname with rfl | rfl | rfl
    · exact c.everywhere_of_ne id route users (by decide) (by decide)
        (id.middleware_ne_shared (by decide) (by decide)).symm
    · exact c.everywhere_of_ne id route users (id.middleware_ne_shared (by decide) (by decide))
        (id.middleware_ne_shared (by decide) (by decide)) (RouteId.middleware_inj.not.mpr (by decide))
    · exact c.everywhere_of_ne id route users (id.middleware_ne_shared (by decide) (by decide))
        (id.middleware_ne_shared (by decide) (by decide)) (RouteId.middleware_inj.not.mpr (by decide))
  ordered r hr := by
    obtain ⟨names, hrefs, hsublist⟩ := c.exists_names_of_mem_routers id route users hr
    exact map_refName_refs hrefs ▸ hsublist

/-- A route whose passwords the hasher takes is compiled, whatever is stored of it; and the graph is closed,
with nothing in it that is not used, whether the route is valid or not. -/
theorem minimal_recompile (c : Compiler) (id : RouteId) (route : Route) (previous : Option Graph)
    (hash : String → String)
    (hhash : ∀ e ∈ route.activeCredentials, c.hasher e.password = .ok (hash e.password)) :
    ∃ g, c.recompile id route previous = .ok g ∧ g.Minimal id route := by
  obtain ⟨users, husers⟩ := exists_hashCredentials (storedIn previous) hhash
  exact ⟨_, recompile_eq_ok_iff.mpr ⟨users, husers, rfl⟩, c.minimal_graphOf id route users⟩

/-- The signs in an identity that also stand in references and keys do no harm. -/
theorem minimal_recompile_crowdedRoute :
    (∀ e ∈ crowdedRoute.activeCredentials, Hasher.marking e.password = .ok ("$static$" ++ e.password)) ∧
    ∃ g, Compiler.recompile ⟨"", Hasher.marking, none⟩ ⟨"a@b-headers"⟩ { crowdedRoute with https := true }
        (some {}) = .ok g ∧
      g.Minimal ⟨"a@b-headers"⟩ { crowdedRoute with https := true } := by
  have hhash : ∀ e ∈ crowdedRoute.activeCredentials,
      Hasher.marking e.password = .ok ("$static$" ++ e.password) := fun _ _ => rfl
  exact ⟨hhash, minimal_recompile ⟨"", Hasher.marking, none⟩ ⟨"a@b-headers"⟩
    { crowdedRoute with https := true } (some {}) (fun p => "$static$" ++ p) hhash⟩

/-! ## Passwords -/

/-- Users are hashed one by one. -/
theorem length_users_of_recompile {c : Compiler} {id : RouteId} {route : Route} {previous : Option Graph}
    {g : Graph} (h : c.recompile id route previous = .ok g) :
    ∃ users, users.length = route.activeCredentials.length ∧ g = c.graphOf id route users := by
  obtain ⟨users, husers, hg⟩ := recompile_eq_ok_iff.mp h
  exact ⟨users, (hashCredentials_eq_ok_iff.mp husers).length_eq.symm, hg⟩

/-- Of a route's own middlewares only the users' one has the key of one. -/
theorem basicAuth_mem_own : id.middleware basicAuthKind ∉ (c.headersMiddleware id route).map (·.1) ∧
    (id.middleware basicAuthKind ∈ (basicAuthMiddleware id users).map (·.1) ↔ users ≠ []) ∧
    id.middleware basicAuthKind ∉ (ipMiddleware id route).map (·.1) := by
  have hne : ∀ kind, kind ≠ basicAuthKind → id.middleware basicAuthKind ∉ [id.middleware kind] :=
    fun kind hkind hmem => hkind (RouteId.middleware_inj.mp (List.mem_singleton.mp hmem)).symm
  refine ⟨fun hmem => ?_, ?_, fun hmem => ?_⟩
  · exact hne headersKind (by decide) ((c.map_fst_headersMiddleware id route).subset hmem)
  · cases users <;> simp [basicAuthMiddleware]
  · exact hne ipRestrictKind (by decide) ((map_fst_ipMiddleware id route).subset hmem)

theorem basicAuth_notMem_shared (condition : Bool) {name : String}
    (hname : name ∈ SharedMiddlewares.wellKnown) :
    id.middleware basicAuthKind ∉ (if condition then [name] else []) := fun hmem =>
  id.middleware_ne_shared (by decide) hname
    (List.mem_singleton.mp (List.mem_ite_nil_right.mp hmem).2)

theorem basicAuth_mem_secureNames_iff : id.middleware basicAuthKind ∈ secureNames route
    (c.headersMiddleware id route) (basicAuthMiddleware id users) (ipMiddleware id route) ↔ users ≠ [] := by
  obtain ⟨hheaders, hauth, hips⟩ := c.basicAuth_mem_own id route users
  simp only [secureNames, List.mem_append, hheaders, hauth, hips, or_false, false_or,
    basicAuth_notMem_shared id _ (by decide : SharedMiddlewares.hsts ∈ _),
    basicAuth_notMem_shared id _ (by decide : SharedMiddlewares.forwardAuthName ∈ _)]

theorem basicAuth_mem_plainNames_iff : id.middleware basicAuthKind ∈ plainNames route
    (c.headersMiddleware id route) (basicAuthMiddleware id users) (ipMiddleware id route) ↔
      users ≠ [] ∧ route.https = false := by
  obtain ⟨hheaders, hauth, hips⟩ := c.basicAuth_mem_own id route users
  simp only [plainNames, List.mem_append, hheaders, hips, or_false, false_or,
    basicAuth_notMem_shared id _ (by decide : SharedMiddlewares.redirect ∈ _),
    basicAuth_notMem_shared id _ (by decide : SharedMiddlewares.forwardAuthName ∈ _)]
  cases route.https with
  | false => simpa using hauth
  | true => simp

/-- Each active credential of a route that is compiled is a user of the route's own middleware. The router
for encrypted requests asks for the passwords, and so does the other one if it is the only one. If it is
not, it asks for none, and sends requests on to be encrypted exactly if the route forces that. So of a route
with credentials exactly one router may be unguarded: that for unencrypted requests, where there are
encrypted ones and they are not forced. -/
theorem isGuarded_recompile_iff (c : Compiler) (id : RouteId) (route : Route) (previous : Option Graph)
    (hasks : route.activeCredentials ≠ []) {g : Graph} (hmade : c.recompile id route previous = .ok g) :
    (∃ users, users.length = route.activeCredentials.length ∧
      g.http.middlewares.get? (id.middleware basicAuthKind) = some (.basicAuth { users := some users })) ∧
    ∀ k r, g.http.routers.get? k = some r →
      (r.hasMiddleware (id.middleware basicAuthKind) = true ↔ k = id.text ∨ route.https = false) ∧
      (r.IsGuarded id ↔ ¬ (k = id.httpRouter ∧ route.https = true ∧ route.forceTls = false)) := by
  obtain ⟨users, hlength, rfl⟩ := length_users_of_recompile hmade
  have husers : users ≠ [] := by
    rintro rfl
    exact hasks (List.length_eq_zero_iff.mp hlength.symm)
  refine ⟨⟨users, hlength, ?_⟩, fun k r hr => ?_⟩
  · rw [get?_basicAuthMiddleware, if_neg (by simpa using husers)]
  · rcases (c.get?_routers_eq_some_iff id route users).mp hr with ⟨rfl, rfl⟩ | ⟨rfl, hhttps, rfl⟩
    · have hasked := (c.plain_hasMiddleware_iff route id users (id.middleware basicAuthKind)).trans
        (c.basicAuth_mem_plainNames_iff id route users)
      refine ⟨?_, ?_⟩
      · rw [hasked, or_iff_right id.httpRouter_ne_text, and_iff_right husers]
      · rw [Router.IsGuarded, hasked, plain_hasMiddleware_redirect, and_iff_right husers]
        cases route.https <;> cases route.forceTls <;> simp
    · have hasked := (c.secure_hasMiddleware_iff route id users (id.middleware basicAuthKind)).trans
        (c.basicAuth_mem_secureNames_iff id route users)
      have hne := id.httpRouter_ne_text
      refine ⟨iff_of_true (hasked.mpr husers) (.inl rfl), iff_of_true (.inl (hasked.mpr husers)) ?_⟩
      exact fun h => hne h.1.symm

/-- A route with a user whose encrypted requests are not forced. -/
def openRoute : Route where
  name := "blog"
  domain := "blog.example.com"
  backend := { url := "http://10.0.0.5:8080" }
  https := true
  basicAuth := [{ username := "admin", password := "secret" }]

theorem isGuarded_recompile_iff_openRoute : openRoute.activeCredentials ≠ [] ∧
    ∃ g, Compiler.recompile ⟨"le", Hasher.marking, none⟩ ⟨"blog_0a1b2c3d"⟩ openRoute none = .ok g ∧
      ∀ k r, g.http.routers.get? k = some r →
        (r.IsGuarded ⟨"blog_0a1b2c3d"⟩ ↔ ¬ (k = "blog_0a1b2c3d-http" ∧ openRoute.https = true ∧
          openRoute.forceTls = false)) := by
  have hasks : openRoute.activeCredentials ≠ [] := by decide
  have hmade := @compile_eq_ok ⟨"le", Hasher.marking, none⟩ openRoute (fun p => "$static$" ++ p)
    ⟨"blog_0a1b2c3d"⟩ fun _ _ => rfl
  exact ⟨hasks, _, hmade, fun k r hr => ((isGuarded_recompile_iff ⟨"le", Hasher.marking, none⟩
    ⟨"blog_0a1b2c3d"⟩ openRoute none hasks hmade).2 k r hr).2⟩

/-- A valid route with a user is served to whoever asks without encryption. -/
theorem not_isGuarded_openRoute :
    openRoute.validate.isValid = true ∧ openRoute.activeCredentials ≠ [] ∧
    ∃ g r, Compiler.compile ⟨"le", Hasher.marking, none⟩ ⟨"blog_0a1b2c3d"⟩ openRoute = .ok g ∧
      g.http.routers.get? "blog_0a1b2c3d-http" = some r ∧ r.service = some "blog_0a1b2c3d@file" ∧
      ¬ r.IsGuarded ⟨"blog_0a1b2c3d"⟩ := by
  have hmade := @compile_eq_ok ⟨"le", Hasher.marking, none⟩ openRoute (fun p => "$static$" ++ p)
    ⟨"blog_0a1b2c3d"⟩ fun _ _ => rfl
  refine ⟨by decide +kernel, by decide, _, _, hmade, get?_httpRouter .., rfl, ?_⟩
  rw [Router.IsGuarded, not_or]
  exact ⟨by decide +kernel, by decide +kernel⟩

end Compiler

end RouteFleet
