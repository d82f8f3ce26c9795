import RouteFleet.Proofs.Fleet.Order

/-! # Runs of operations on a fleet

A fleet starts out with an empty folder, and then operations follow one another, with any arguments,
each failing or not (`Fleet.run`). Each fleet that comes of this is in order (`Fleet.inOrder_run`), so all
of it can be listed, and each listed route is as a route of the fleet should be (`Fleet.list_run`).
-/

namespace RouteFleet

/-- What an operator may have done to a fleet. -/
inductive Operation where
  | add (route : Route)
  | update (route : Route)
  | delete (id : RouteId)
  | setCertResolver (name : String)
  | setForwardAuth (change : ForwardAuthChange)
  | migrate
  | writeShared (shared : SharedMiddlewares)

namespace Fleet

/-- Does an operation. -/
def perform : Operation → FleetM Unit
  | .add route => discard (add route)
  | .update route => discard (update route)
  | .delete id => delete id
  | .setCertResolver name => discard (setCertResolver name)
  | .setForwardAuth change => discard (setForwardAuth change)
  | .migrate => discard migrate
  | .writeShared shared => writeShared shared

/-- The fleet after some operations, of which any may have failed. -/
def run (operations : List Operation) (fleet : Fleet) : Fleet :=
  operations.foldl (fun fleet operation => (outcome (perform operation) fleet).2) fleet

/-- A fleet whose folder is there and empty. -/
def start (root : String) (refusals : Refusals) (tags : List Tag) (compiler : Compiler) : Fleet where
  store := { root := root, content := .ok .empty, refusals := refusals }
  tags := tags
  compiler := compiler

/-! ## Order is kept -/

theorem KeepsOrder.discard {α : Type} {x : FleetM α} {Q : α → Prop} (h : KeepsOrder x Q) :
    KeepsOrder (discard x) fun _ => True := Maintains.discard h

theorem keepsOrder_perform (operation : Operation) :
    KeepsOrder (perform operation) fun _ => True := by
  cases operation with
  | add route => exact (keepsOrder_add route).discard
  | update route => exact (keepsOrder_update route).discard
  | delete id => exact keepsOrder_delete id
  | setCertResolver name => exact (keepsOrder_setCertResolver name).discard
  | setForwardAuth change => exact (keepsOrder_setForwardAuth change).discard
  | migrate => exact keepsOrder_migrate.discard
  | writeShared shared => exact keepsOrder_writeShared shared

/-- A fleet in order is in order after any operations. -/
theorem inOrder_run (operations : List Operation) {fleet : Fleet} (h : fleet.store.InOrder) :
    (run operations fleet).store.InOrder := by
  induction operations generalizing fleet with
  | nil => exact h
  | cons operation operations ih => exact ih (keepsOrder_perform operation fleet h).1

theorem inOrder_start (root : String) (refusals : Refusals) (tags : List Tag) (compiler : Compiler) :
    (start root refusals tags compiler).store.InOrder :=
  ⟨.empty, rfl, fun _ _ he => nomatch he⟩

/-! ## Listing -/

theorem outcome_loadAll {fleet : Fleet} {ids : List RouteId}
    (h : ∀ id ∈ ids, id.IsMade ∧
      ∃ bytes, fleet.store.read id.text = .ok (some bytes) ∧ id.Holds bytes) :
    ∃ rs, outcome (loadAll ids) fleet = (.ok rs, fleet) ∧ rs.map (·.id) = ids ∧
      ∀ r ∈ rs, IsKept r := by
  induction ids with
  | nil => exact ⟨[], rfl, rfl, List.forall_mem_nil _⟩
  | cons id ids ih =>
    rw [List.forall_mem_cons] at h
    obtain ⟨⟨hmade, bytes, hread, g, hg, hbelongs⟩, hrest⟩ := h
    obtain ⟨rs, hrs, hids, hkept⟩ := ih hrest
    refine ⟨{ id := id, graph := g } :: rs, ?_, congrArg (id :: ·) hids,
      List.forall_mem_cons.mpr ⟨⟨hmade, hbelongs⟩, hkept⟩⟩
    have hstored : IsStored fleet.store { id := id, graph := g } := ⟨bytes, hread, graphOf_eq_ok_iff.mpr hg⟩
    exact (outcome_bind_ok (outcome_load_of_isStored hstored)).trans (outcome_bind_ok hrs)

/-- All routes of a fleet in order are listed. -/
theorem outcome_list {fleet : Fleet} (h : fleet.store.InOrder) :
    ∃ rs, outcome list fleet = (.ok rs, fleet) ∧ fleet.store.list = .ok (rs.map (·.id)) ∧
      ∀ r ∈ rs, IsKept r := by
  obtain ⟨ids, hids, hread⟩ := h.list
  obtain ⟨rs, hrs, hmap, hkept⟩ := outcome_loadAll hread
  exact ⟨rs, (outcome_list_of_ok hids).trans hrs, hmap ▸ hids, hkept⟩

/-! ## Routes of a fleet -/

/-- What is true of each route that a fleet lists: its identity has two parts, its keys are made from
the identity, each of its own middlewares is passed by a router, no reference dangles, and an operator
can be shown it under a valid name. -/
structure IsWellFiled (r : StoredRoute) : Prop where
  twoParts : r.id.isLegacy = false
  routerKeys : ∀ k ∈ r.graph.http.routers.keys, k = r.id.text ∨ k = r.id.httpRouter
  plainRouter : r.id.httpRouter ∈ r.graph.http.routers.keys
  serviceKeys : r.graph.http.services.keys = [r.id.text]
  middlewareKeys : ∀ k ∈ r.graph.http.middlewares.keys,
    k ∈ RouteId.ownKinds.map r.id.middleware ∧ r.graph.anyRouterHas k = true
  noDangling : r.graph.dangling SharedMiddlewares.wellKnown = []
  shown : ∃ route, r.describe = .ok route ∧ route.name = r.id.name ∧ Rule.isName route.name = true

theorem IsKept.isWellFiled {r : StoredRoute} (h : IsKept r) : IsWellFiled r where
  twoParts := h.1.isLegacy_eq_false
  routerKeys k hk := by
    obtain ⟨router, hrouter⟩ := Dict.mem_keys_iff.mp hk
    exact h.2.routerKey k router hrouter
  plainRouter := Dict.mem_keys_iff.mpr h.2.plainRouter
  serviceKeys := h.2.keys_services
  middlewareKeys k hk := by
    obtain ⟨m, hm⟩ := Dict.mem_keys_iff.mp hk
    exact h.2.middlewareKey k m hm
  noDangling := h.2.dangling_eq_nil
  shown := by
    obtain ⟨route, hroute, hname⟩ := h.2.project
    exact ⟨route, hroute, hname, hname ▸ h.1.isName_name⟩

/-- After any operations on a fleet that started out empty, whatever the system refused, all identities
that the store lists can be read, and each route is well filed. -/
theorem list_run (root : String) (refusals : Refusals) (tags : List Tag) (compiler : Compiler)
    (operations : List Operation) :
    let fleet := run operations (start root refusals tags compiler)
    ∃ rs, outcome list fleet = (.ok rs, fleet) ∧ fleet.store.list = .ok (rs.map (·.id)) ∧
      ∀ r ∈ rs, IsWellFiled r := by
  intro fleet
  obtain ⟨rs, hrs, hids, hkept⟩ :=
    outcome_list (inOrder_run operations (inOrder_start root refusals tags compiler))
  exact ⟨rs, hrs, hids, fun r hr => (hkept r hr).isWellFiled⟩

end Fleet

end RouteFleet
