import RouteFleet.Projection
import RouteFleet.Proofs.Graph.Moved

/-! # What a moved graph shows

What a graph shows under an identity is looked up under names that are made from the identity, and under the
name of the service that the first router refers to. When all that is named after the identity moves over to
another, each of these names goes where the entry goes that stands under it (`Dict.get?_renameKeys`), and
references to shared middlewares stay (`Router.hasMiddleware_rename_iff`). So the graph shows the same route
under the other identity, or shows none for the same reason.

Main statement: `Graph.project_rename`.
-/

namespace RouteFleet

variable {old new : RouteId} {tag : Tag}

/-! ## How a route is shown -/

namespace Graph

/-- The router that says what a route is: that for unencrypted requests, if there is one. -/
def primary? (g : Graph) (id : RouteId) : Option Router :=
  (g.http.routers.get? id.httpRouter).or (g.http.routers.get? id.text)

/-- The name of the service that a router is for, which is the identity if the router names none. -/
def serviceName (id : RouteId) (r : Router) : String := (r.service.map refName).getD id.text

/-- The route that is shown if there is a router and a server. -/
def routeShown (g : Graph) (id : RouteId) (primary : Router) (server : Server) : Route where
  id := some id
  name := id.name
  domain := hostOf primary.rule
  backend := { url := server.url }
  forwardAuth := g.anyRouterHas SharedMiddlewares.forwardAuthName
  https := (g.http.routers.get? id.text).any fun r => r.tls.isSome
  forceTls := (g.http.routers.get? id.httpRouter).any fun r => r.hasMiddleware SharedMiddlewares.redirect
  hsts := (g.http.routers.get? id.text).any fun r => r.hasMiddleware SharedMiddlewares.hsts
  headers := g.headersOf id
  basicAuth := g.credentialsOf id
  ipRestriction := g.restrictionOf id

theorem project_eq (g : Graph) (id : RouteId) : g.project id =
    match g.primary? id with
    | none => .error (.missingRouter id)
    | some primary =>
      match g.http.services.get? (serviceName id primary) with
      | none => .error (.missingService id (serviceName id primary))
      | some s =>
        match firstServer? s with
        | none => .error (.missingBackend id)
        | some server => .ok (g.routeShown id primary server) := rfl

theorem mem_routers_of_primary? {g : Graph} {id : RouteId} {r : Router} (h : g.primary? id = some r) :
    r ∈ g.http.routers.values := by
  rcases Option.or_eq_some_iff.mp h with h | ⟨-, h⟩
  · exact Dict.mem_values_iff.mpr ⟨_, h⟩
  · exact Dict.mem_values_iff.mpr ⟨_, h⟩

end Graph

/-! ## Look-ups -/

/-- Where nothing is named after the new identity, a moved entry is found under the moved key, and nothing
is found that was not there. -/
theorem Dict.get?_renameKeys {α : Type} {d : Dict α} (hfresh : ∀ k ∈ d.keys, ¬ new.Owns k) {k : String}
    (hk : ¬ new.Owns k) : (d.renameKeys old new).get? (renameKey old new k) = d.get? k := by
  have hmoved : d.MovedOver old new Eq (d.renameKeys old new) := Dict.movedOver_renameKeys hfresh
  cases hfound : d.get? k with
  | some v =>
    obtain ⟨k', v', hmoves, rfl, hv'⟩ := hmoved.entry k v hfound
    rw [← moves_iff.mp hmoves, hv']
  | none =>
    cases hfound' : (d.renameKeys old new).get? (renameKey old new k) with
    | none => rfl
    | some v' =>
      obtain ⟨k₀, v, hv, hmoves, -⟩ := hmoved.origin _ v' hfound'
      obtain rfl := hmoves.inj (moves_iff.mpr rfl) (hfresh k₀ (mem_keys_iff.mpr ⟨v, hv⟩)) hk
      cases hfound.symm.trans hv

/-- What was there is there where nothing is named after the new identity. -/
theorem Dict.mem_values_renameKeys_iff {α : Type} {d : Dict α} (hfresh : ∀ k ∈ d.keys, ¬ new.Owns k) {v : α} :
    v ∈ (d.renameKeys old new).values ↔ v ∈ d.values := by
  refine ⟨Dict.mem_values_of_renameKeys, fun h => ?_⟩
  obtain ⟨k, hk⟩ := Dict.mem_values_iff.mp h
  refine Dict.mem_values_iff.mpr ⟨renameKey old new k, ?_⟩
  rw [Dict.get?_renameKeys hfresh (hfresh k (Dict.mem_keys_iff.mpr ⟨v, hk⟩)), hk]

namespace RouteId

variable {id : RouteId}

theorem owns_text : id.Owns id.text := .inl rfl

theorem owns_middleware (kind : String) : id.Owns (id.middleware kind) := owns_iff.mpr (.inr ⟨kind, rfl⟩)

theorem owns_httpRouter : id.Owns id.httpRouter := by
  refine owns_iff.mpr (.inr ⟨"http", ?_⟩)
  rw [httpRouter, String.append_assoc]
  rfl

end RouteId

/-! ## What is looked up -/

/-- A renamed router passes a middleware that is neither named after the old nor after the new identity if
and only if the router did. -/
theorem Router.hasMiddleware_rename (hnew : new = RouteId.ofTag old.text tag) {name : String}
    (hname : ¬ new.Owns name) (hkept : ¬ old.Owns name) (r : Router) :
    (r.rename old new).hasMiddleware name = r.hasMiddleware name := by
  rw [Bool.eq_iff_iff, hasMiddleware_rename_iff hnew hname]
  exact and_iff_left hkept

namespace Graph

variable {g : Graph}

section Middlewares

variable (hnew : new = RouteId.ofTag old.text tag) (hfresh : ∀ k ∈ g.http.middlewares.keys, ¬ new.Owns k)

include hnew hfresh

/-- The route's own middleware of a kind is found under the new identity. -/
theorem get?_middleware_rename (kind : String) :
    (g.rename old new).http.middlewares.get? (new.middleware kind) =
      g.http.middlewares.get? (old.middleware kind) := by
  have hkey : renameKey old new (old.middleware kind) = new.middleware kind := renameKey_middleware kind
  subst hnew
  rw [← hkey]
  exact Dict.get?_renameKeys hfresh ((RouteId.owns_middleware kind).not_owns_ofTag tag)

theorem headersOf_rename : (g.rename old new).headersOf new = g.headersOf old := by
  rw [headersOf, get?_middleware_rename hnew hfresh, headersOf]

theorem credentialsOf_rename : (g.rename old new).credentialsOf new = g.credentialsOf old := by
  rw [credentialsOf, get?_middleware_rename hnew hfresh, credentialsOf]

theorem restrictionOf_rename : (g.rename old new).restrictionOf new = g.restrictionOf old := by
  rw [restrictionOf, get?_middleware_rename hnew hfresh, restrictionOf]

end Middlewares

section Routers

variable (hfresh : ∀ k ∈ g.http.routers.keys, ¬ new.Owns k)

include hfresh

theorem get?_routers_rename {k : String} (hk : ¬ new.Owns k) :
    (g.rename old new).http.routers.get? (renameKey old new k) =
      (g.http.routers.get? k).map (Router.rename old new) := by
  rw [rename, Dict.get?_renameKeys (by rwa [Dict.keys_map]) hk, Dict.get?_map]

theorem mem_routers_rename_iff {r : Router} : r ∈ (g.rename old new).http.routers.values ↔
    ∃ r₀ ∈ g.http.routers.values, r₀.rename old new = r := by
  rw [rename, Dict.mem_values_renameKeys_iff (by rwa [Dict.keys_map]), Dict.mem_values_map]

/-- Some router passes a middleware that is neither named after the old nor after the new identity if and
only if one did. -/
theorem anyRouterHas_rename (hnew : new = RouteId.ofTag old.text tag) {name : String}
    (hname : ¬ new.Owns name) (hkept : ¬ old.Owns name) :
    (g.rename old new).anyRouterHas name = g.anyRouterHas name := by
  have hhas := Router.hasMiddleware_rename hnew hname hkept
  rw [Bool.eq_iff_iff, anyRouterHas, anyRouterHas, List.any_eq_true, List.any_eq_true]
  constructor
  · rintro ⟨r, hr, hr'⟩
    obtain ⟨r₀, hr₀, rfl⟩ := (mem_routers_rename_iff hfresh).mp hr
    exact ⟨r₀, hr₀, (hhas r₀).symm.trans hr'⟩
  · rintro ⟨r, hr, hr'⟩
    exact ⟨_, (mem_routers_rename_iff hfresh).mpr ⟨r, hr, rfl⟩, (hhas r).trans hr'⟩

end Routers

/-! ## Renamed graphs -/

theorem serviceName_rename (hnew : new = RouteId.ofTag old.text tag) (r : Router) :
    serviceName new (r.rename old new) = renameKey old new (serviceName old r) := by
  rw [serviceName, serviceName, Router.rename]
  cases r.service with
  | none => exact renameKey_text.symm
  | some service => exact refName_renameRef hnew service

end Graph

/-- The same reason with one identity in place of another, and names as they are then. -/
def ProjectionError.rename (old new : RouteId) : ProjectionError → ProjectionError
  | missingRouter _ => missingRouter new
  | missingService _ service => missingService new (renameKey old new service)
  | missingBackend _ => missingBackend new

namespace Graph

section Shown

variable {g : Graph} (hname : old.text ≠ "") (hlegacy : old.isLegacy = true)
  (hfresh : ∀ name ∈ g.names, ¬ (RouteId.ofTag old.text tag).Owns name)
  (hshared : ∀ name ∈ SharedMiddlewares.wellKnown, ¬ old.Owns name)

include hfresh

theorem get?_routers_rename_of_owns {k : String} (hk : old.Owns k) :
    (g.rename old (.ofTag old.text tag)).http.routers.get? (renameKey old (.ofTag old.text tag) k) =
      (g.http.routers.get? k).map (Router.rename old (.ofTag old.text tag)) := by
  refine get?_routers_rename (fun k hk => hfresh k ?_) (hk.not_owns_ofTag tag)
  simp only [names, List.mem_append]
  exact .inl (.inl (.inl hk))

/-- The router for unencrypted requests is found under the new identity. -/
theorem get?_httpRouter_rename :
    (g.rename old (.ofTag old.text tag)).http.routers.get? (RouteId.ofTag old.text tag).httpRouter =
      (g.http.routers.get? old.httpRouter).map (Router.rename old (.ofTag old.text tag)) := by
  rw [← get?_routers_rename_of_owns hfresh RouteId.owns_httpRouter, renameKey_httpRouter]

/-- The router for encrypted requests is found under the new identity. -/
theorem get?_text_rename :
    (g.rename old (.ofTag old.text tag)).http.routers.get? (RouteId.ofTag old.text tag).text =
      (g.http.routers.get? old.text).map (Router.rename old (.ofTag old.text tag)) := by
  rw [← get?_routers_rename_of_owns hfresh RouteId.owns_text, renameKey_text]

theorem primary?_rename : (g.rename old (.ofTag old.text tag)).primary? (.ofTag old.text tag) =
    (g.primary? old).map (Router.rename old (.ofTag old.text tag)) := by
  rw [primary?, get?_httpRouter_rename hfresh, get?_text_rename hfresh, ← Option.map_or, primary?]

/-- The service of the first router is found if and only if it was. -/
theorem get?_serviceName_rename {primary : Router} (h : g.primary? old = some primary) :
    (g.rename old (.ofTag old.text tag)).http.services.get?
        (serviceName (.ofTag old.text tag) (primary.rename old (.ofTag old.text tag))) =
      g.http.services.get? (serviceName old primary) := by
  simp only [names, List.forall_mem_append, List.forall_mem_map] at hfresh
  obtain ⟨⟨⟨-, hservices⟩, -⟩, hrefs⟩ := hfresh
  rw [serviceName_rename rfl]
  refine Dict.get?_renameKeys hservices ?_
  rw [serviceName]
  cases hservice : primary.service with
  | none => exact RouteId.owns_text.not_owns_ofTag tag
  | some service =>
    exact hrefs service (mem_references_iff.mpr ⟨primary, mem_routers_of_primary? h, .inl hservice⟩)

include hname hlegacy hshared

/-- What is shown is the same but for the identity. -/
theorem routeShown_rename (primary : Router) (server : Server) :
    (g.rename old (.ofTag old.text tag)).routeShown (.ofTag old.text tag)
        (primary.rename old (.ofTag old.text tag)) server =
      { g.routeShown old primary server with id := some (.ofTag old.text tag) } := by
  have hplain := get?_httpRouter_rename hfresh
  have hsecure := get?_text_rename hfresh
  have hforeign := RouteId.not_owns_ofTag_wellKnown old.text tag
  have hhas : ∀ name ∈ SharedMiddlewares.wellKnown, ∀ r : Router,
      (r.rename old (.ofTag old.text tag)).hasMiddleware name = r.hasMiddleware name := fun name hmem =>
    Router.hasMiddleware_rename rfl (hforeign name hmem) (hshared name hmem)
  simp only [names, List.forall_mem_append, List.forall_mem_map] at hfresh
  obtain ⟨⟨⟨hrouters, -⟩, hmiddlewares⟩, -⟩ := hfresh
  have hcalled : (RouteId.ofTag old.text tag).name = old.name :=
    (RouteId.name_ofTag hname tag).trans (RouteId.name_of_isLegacy hlegacy).symm
  have hforwardAuth : SharedMiddlewares.forwardAuthName ∈ SharedMiddlewares.wellKnown := by decide
  have hredirect : SharedMiddlewares.redirect ∈ SharedMiddlewares.wellKnown := by decide
  have hhsts : SharedMiddlewares.hsts ∈ SharedMiddlewares.wellKnown := by decide
  rw [routeShown, hplain, hsecure, headersOf_rename rfl hmiddlewares, credentialsOf_rename rfl hmiddlewares,
    restrictionOf_rename rfl hmiddlewares, hcalled,
    anyRouterHas_rename hrouters rfl (hforeign _ hforwardAuth) (hshared _ hforwardAuth)]
  simp only [Option.any_map, hhas _ hredirect, hhas _ hhsts]
  rfl

end Shown

/-- When all that is named after a legacy identity moves over to that identity with a tag, and nothing is
named after the latter yet, then the graph shows the same route under it, or shows none for the same reason,
provided that no shared name is made from the legacy identity. -/
theorem project_rename (g : Graph) (old : RouteId) (tag : Tag) (hname : old.text ≠ "")
    (hlegacy : old.isLegacy = true) (hfresh : ∀ name ∈ g.names, ¬ (RouteId.ofTag old.text tag).Owns name)
    (hshared : ∀ name ∈ SharedMiddlewares.wellKnown, ¬ old.Owns name) :
    (g.rename old (.ofTag old.text tag)).project (.ofTag old.text tag) =
      ((g.project old).map fun route => { route with id := some (.ofTag old.text tag) }).mapError
        (ProjectionError.rename old (.ofTag old.text tag)) := by
  rw [project_eq, project_eq, primary?_rename hfresh]
  cases hprimary : g.primary? old with
  | none => rfl
  | some primary =>
    simp only [Option.map_some, get?_serviceName_rename hfresh hprimary]
    cases hservice : g.http.services.get? (serviceName old primary) with
    | none => exact congrArg (Except.error ∘ ProjectionError.missingService _) (serviceName_rename rfl primary)
    | some s =>
      dsimp only
      cases hserver : firstServer? s with
      | none => rfl
      | some server =>
        exact congrArg Except.ok (routeShown_rename hname hlegacy hfresh hshared primary server)

theorem project_rename_testGraph : ∃ tag : Tag, tag.text = "0a1b2c3d" ∧
    ((testGraph.project ⟨"Test"⟩).map fun route => (route.domain, route.backend.url, route.hsts)) =
      .ok ("test.example.com", "http://1.2.3.4:80", true) ∧
    (testGraph.rename ⟨"Test"⟩ (.ofTag "Test" tag)).project (.ofTag "Test" tag) =
      ((testGraph.project ⟨"Test"⟩).map fun route => { route with id := some (.ofTag "Test" tag) }).mapError
        (ProjectionError.rename ⟨"Test"⟩ (.ofTag "Test" tag)) := by
  have hfresh : ∀ name ∈ testGraph.names,
      ¬ (RouteId.ofTag "Test" ⟨"0a1b2c3d", by decide +kernel⟩).Owns name := by decide +kernel
  have hshared : ∀ name ∈ SharedMiddlewares.wellKnown, ¬ (⟨"Test"⟩ : RouteId).Owns name := by decide +kernel
  exact ⟨⟨"0a1b2c3d", by decide +kernel⟩, rfl, by decide +kernel,
    project_rename testGraph ⟨"Test"⟩ _ (by decide) (by decide +kernel) hfresh hshared⟩

end Graph

end RouteFleet
