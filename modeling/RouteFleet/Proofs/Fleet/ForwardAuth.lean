import RouteFleet.Proofs.Fleet.Bootstrap
import RouteFleet.Proofs.Fleet.Resubmit

/-! # Forward authentication where there is nobody to ask

Where settings name no endpoint, the shared object does not define forward authentication, and
bootstrapping takes the references to it from all routes. It does so once: a route that is added or
replaced afterwards refers to it again if it asks for it, since nothing compares it with the settings.

What is listed after an operation on a route was listed before, or it is that route as it is compiled
(`Fleet.origin_perform`).

Main statement: `Fleet.forwardAuth_run`, the listed routes that refer to forward authentication are those
that such an operation has brought.
-/

namespace RouteFleet

namespace Operation

/-- Whether an operation adds, replaces or removes one route. -/
def isOnRoute : Operation → Bool
  | .add _ | .update _ | .delete _ => true
  | .setCertResolver _ | .setForwardAuth _ | .migrate | .writeShared _ => false

/-- Whether an operation is to store a route that asks for forward authentication. -/
def asksForwardAuth : Operation → Bool
  | .add route | .update route => route.forwardAuth
  | .delete _ | .setCertResolver _ | .setForwardAuth _ | .migrate | .writeShared _ => false

end Operation

namespace Fleet

open SharedMiddlewares

/-! ## One operation -/

section Storing

variable {s : Store} {current : RouteId} {r r' : StoredRoute} {entries : Dict Entry} {bytes : ByteArray}
variable {made : Except StoreError Unit × Store} {moments : List Store}

/-- What is listed after a route was to be stored is that route, or was listed before. -/
theorem Goes.origin (h : Goes s current r entries bytes made moments) (hroot : made.2.root = s.root)
    (hentries : s.content = .ok entries) (hkey : Store.isPlainKey r.id.text = true)
    (hlists : Lists made.2 r') : (r'.id = r.id ∧ graphOf r.id.text bytes = .ok r'.graph) ∨ Lists s r' := by
  cases h with
  | refused after h => exact .inr (hlists.of_content hroot.symm (h.trans hentries) hentries)
  | inPlace after hid h => exact hlists.of_insert hroot hentries h hkey
  | stuck mid after hid hmid hremove h => exact hlists.of_insert hroot hentries (h.trans hmid) hkey
  | moved mid after hid hmid h =>
    -- What is listed is so already before the old object is removed.
    have hmid := s.root_withEntries (entries.insert r.id.fileName (.file bytes))
    have hwritten := s.content_withEntries (entries.insert r.id.fileName (.file bytes))
    have hboth := hlists.of_erase (hroot.trans hmid.symm) hwritten h
    exact hboth.of_insert hmid hentries hwritten hkey

/-- What is written of a route as it is compiled is read back as it was. -/
theorem graphOf_of_recompile {c : Compiler} {route : Route} {previous : Option Graph}
    (h : c.recompile r.id route previous = .ok r.graph) (hwrite : bytesOf r.id.text r.graph = .ok bytes) :
    graphOf r.id.text bytes = .ok r.graph := by
  obtain ⟨users, hmade⟩ := Compiler.exists_users_of_recompile h
  have hmanaged : r.graph.Managed := hmade ▸ c.managed_graphOf r.id route users
  obtain ⟨bytes', hwrite', hread⟩ := exists_bytesOf_of_managed hmanaged r.id.text
  obtain rfl := Except.ok.inj (hwrite'.symm.trans hwrite)
  exact hread

/-- What is read of a route as it was compiled refers to forward authentication if the route asks for it. -/
theorem anyRouterHas_of_graphOf {c : Compiler} {route : Route} {previous : Option Graph} {g : Graph}
    (h : c.recompile r.id route previous = .ok r.graph) (hwrite : bytesOf r.id.text r.graph = .ok bytes)
    (hread : graphOf r.id.text bytes = .ok g) : g.anyRouterHas forwardAuthName = route.forwardAuth := by
  rw [Except.ok.inj (hread.symm.trans (graphOf_of_recompile h hwrite))]
  obtain ⟨users, hmade⟩ := Compiler.exists_users_of_recompile h
  rw [hmade]
  exact c.anyRouterHas_graphOf route r.id users

end Storing

section Perform

variable {fleet after : Fleet} {route : Route} {r : StoredRoute}

theorem origin_add {result : Except FleetError StoredRoute}
    (h : outcome (add route) fleet = (result, after)) (hlists : Lists after.store r) :
    Lists fleet.store r ∨ r.graph.anyRouterHas forwardAuthName = route.forwardAuth := by
  have hroot := root_add h
  rw [add_eq] at h
  rcases outcome_plan_cases (keeps_planAdd route) h with
    ⟨e, -, hstore⟩ | ⟨planned, mid, bytes, hplan, hbytes, -, hstore⟩
  · exact .inl (hstore ▸ hlists)
  have hnew := isNew_planAdd hplan
  obtain ⟨-, previous, hgraph⟩ := recompile_of_planAdd hplan
  obtain ⟨entries, hentries, -⟩ := hnew.exists_entries
  have hgoes := goes_replacing (r := planned) hentries bytes fun hne => absurd rfl hne
  rw [hstore] at hroot hlists
  rcases hgoes.origin hroot hentries hnew.isPlainKey hlists with ⟨-, hread⟩ | hbefore
  · exact .inr (anyRouterHas_of_graphOf hgraph hbytes hread)
  · exact .inl hbefore

/-- What is added is listed, unless its name makes the lead of reserved keys or the folder's path loses its
way. -/
theorem lists_of_add (hplain : fleet.store.HasPlainNames) (hname : route.name ≠ RouteId.leadName)
    (hkept : Path.isLost fleet.store.root = false) (h : outcome (add route) fleet = (.ok r, after)) :
    Lists after.store r := by
  obtain ⟨-, previous, hgraph⟩ := recompile_of_add h
  obtain ⟨entries, bytes, -, -, hbytes, hafter⟩ := isAdded_add h
  have hfiled := ((maintains_add_isFiled _ route fleet rfl).2 r (congrArg Prod.fst h)).1
  rw [← root_add h] at hfiled
  have hplace : after.store.read r.id.text = .ok (some bytes) := (Store.read_eq_ok_iff hafter).mpr
    ⟨hfiled.isReachable, (Dict.get?_insert ..).trans (if_pos rfl)⟩
  have hlisted := ((isInSight_add hplain h).mpr ⟨hname, hkept⟩).listed
  exact ⟨hlisted, bytes, hplace, graphOf_of_recompile hgraph hbytes⟩

theorem origin_update {result : Except FleetError StoredRoute}
    (h : outcome (update route) fleet = (result, after)) (hlists : Lists after.store r) :
    Lists fleet.store r ∨ r.graph.anyRouterHas forwardAuthName = route.forwardAuth := by
  cases hcurrent : route.id with
  | none =>
    rw [update, hcurrent] at h
    obtain ⟨-, rfl⟩ := Prod.mk.inj h
    exact .inl hlists
  | some current =>
    have hroot := root_update h
    rw [update_eq hcurrent] at h
    rcases outcome_plan_cases (keeps_planUpdate route current) h with
      ⟨e, -, hstore⟩ | ⟨planned, mid, bytes, hplan, hbytes, -, hstore⟩
    · exact .inl (hstore ▸ hlists)
    have hplanned := isPlanned_planUpdate hplan
    obtain ⟨-, previous, hgraph⟩ := recompile_of_planUpdate hplan
    obtain ⟨entries, old, hentries, hold, -, -⟩ := hplanned.exists_entries
    have hgoes := goes_replacing (r := planned) hentries bytes fun _ => ⟨old, hold⟩
    rw [hstore] at hroot hlists
    rcases hgoes.origin hroot hentries hplanned.isPlainKey hlists with ⟨-, hread⟩ | hbefore
    · exact .inr (anyRouterHas_of_graphOf hgraph hbytes hread)
    · exact .inl hbefore

theorem origin_delete {id : RouteId} {result : Except FleetError Unit}
    (h : outcome (delete id) fleet = (result, after)) (hlists : Lists after.store r) :
    Lists fleet.store r := by
  have hroot := root_delete h
  have hremoved := isRemoved_delete h
  cases result with
  | error e =>
    obtain ⟨ids, hlist, -⟩ := hlists.1
    obtain ⟨entries, hentries⟩ := Store.exists_entries_of_list hlist
    exact hlists.of_content hroot.symm hentries (hremoved.symm.trans hentries)
  | ok done =>
    obtain ⟨entries, old, hentries, -, hafter⟩ := hremoved
    exact hlists.of_erase hroot hentries hafter

theorem outcome_discard_snd {α : Type} (x : FleetM α) (fleet : Fleet) :
    (outcome (discard x) fleet).2 = (outcome x fleet).2 :=
  congrArg Prod.snd (outcome_bind_pure x (fun _ => ()) fleet)

/-- What is listed after an operation on a route was listed before, or refers to forward authentication if
and only if the operation asks for it. -/
theorem origin_perform {operation : Operation} (hroute : operation.isOnRoute = true)
    (hlists : Lists (outcome (perform operation) fleet).2.store r) :
    Lists fleet.store r ∨ r.graph.anyRouterHas forwardAuthName = operation.asksForwardAuth := by
  cases operation with
  | add route => exact origin_add rfl (outcome_discard_snd (add route) fleet ▸ hlists)
  | update route => exact origin_update rfl (outcome_discard_snd (update route) fleet ▸ hlists)
  | delete id => exact .inl (origin_delete rfl hlists)
  | setCertResolver name => cases hroute
  | setForwardAuth change => cases hroute
  | migrate => cases hroute
  | writeShared shared => cases hroute

end Perform

/-! ## After bootstrapping -/

section Run

variable {s : Settings} {fleet after : Fleet} {reached : List Milestone}

theorem detached_of_bootstrap (hnone : s.authEndpoint = none)
    (h : bootstrap s fleet = ((reached, .ok ()), after)) {r : StoredRoute} (hr : Lists after.store r) :
    r.graph.anyRouterHas forwardAuthName = false := by
  obtain ⟨written, moved, resolved, pairs, count, -, hmove, hresolve, hlast, -⟩ := bootstrap_eq_ok h
  obtain ⟨before, -, hbrought⟩ := (descends_bootstrap hmove hresolve hlast).origin r hr
  exact hbrought.aligned.detached hnone

/-- After bootstrapping with settings that name no endpoint, the shared object does not define forward
authentication; and after any further operations on routes, a listed route refers to it if and only if one
of them that asked for it has brought the route. -/
theorem forwardAuth_run (hnone : s.authEndpoint = none)
    (h : bootstrap s fleet = ((reached, .ok ()), after)) {next : Fleet}
    (hroot : next.store.root = after.store.root) (hnext : next.store.content = after.store.content)
    {operations : List Operation}
    (hroutes : ∀ operation ∈ operations, operation.isOnRoute = true) :
    forwardAuthName ∉ s.sharedMiddlewares.names ∧
    ∀ r, Lists (run operations next).store r →
      (r.graph.anyRouterHas forwardAuthName = true ↔
        ∃ before operation later, operations = before ++ operation :: later ∧
          operation.asksForwardAuth = true ∧ ¬ Lists (run before next).store r ∧
            Lists (run (before ++ [operation]) next).store r) := by
  -- The last operation of a run is done to what the others leave.
  have hlast : ∀ before operation, run (before ++ [operation]) next =
      (outcome (perform operation) (run before next)).2 := fun before operation => List.foldl_concat ..
  refine ⟨?_, fun r hlists => ⟨fun hhas => ?_, ?_⟩⟩
  · rw [names_sharedMiddlewares, hnone]
    decide
  · have hnot : ¬ Lists next.store r := by
      intro hr
      obtain ⟨ids, hlist, -⟩ := hr.1
      obtain ⟨entries, hentries⟩ := Store.exists_entries_of_list hlist
      have hafter := hr.of_content hroot.symm hentries (hnext.symm.trans hentries)
      exact nomatch hhas.symm.trans (detached_of_bootstrap hnone h hafter)
    obtain ⟨before, operation, later, rfl, hbefore, hbrought⟩ :=
      exists_split_of_run (I := fun store => Lists store r) hnot hlists
    refine ⟨before, operation, later, rfl, ?_, hbefore, hbrought⟩
    have hroute := hroutes operation (List.mem_append_right _ List.mem_cons_self)
    rw [← (origin_perform hroute (hlast before operation ▸ hbrought)).resolve_left hbefore]
    exact hhas
  · rintro ⟨before, operation, later, rfl, hasks, hbefore, hbrought⟩
    have hroute := hroutes operation (List.mem_append_right _ List.mem_cons_self)
    rw [(origin_perform hroute (hlast before operation ▸ hbrought)).resolve_left hbefore]
    exact hasks

end Run

/-- A valid route that asks for forward authentication. -/
def askingRoute : Route where
  name := "blog"
  domain := "blog.example.com"
  backend := { url := "http://10.0.0.5:8080" }
  forwardAuth := true

/-- The route is added after bootstrapping, and refers to what is not defined. -/
theorem forwardAuth_run_askingRoute : openSettings.authEndpoint = none ∧
    ∃ reached after, bootstrap openSettings emptyFleet = ((reached, .ok ()), after) ∧
      forwardAuthName ∉ openSettings.sharedMiddlewares.names ∧
      ∃ r, Lists (run [.add askingRoute] after).store r ∧ r.graph.anyRouterHas forwardAuthName = true := by
  refine ⟨rfl, ?_⟩
  obtain ⟨hdone, hfiles, hbefore, hkept, hadded⟩ :
      (bootstrap openSettings emptyFleet).1.2.toOption = some () ∧
      (bootstrap openSettings emptyFleet).2.store.content.toOption.map (·.keys) =
        some ["sys_middlewares.yaml"] ∧
      (bootstrap openSettings emptyFleet).2.store.list = .ok [] ∧
      Path.isLost (bootstrap openSettings emptyFleet).2.store.root = false ∧
      (outcome (add askingRoute) (bootstrap openSettings emptyFleet).2).1.isOk = true := by
    decide +kernel
  rcases hrun : bootstrap openSettings emptyFleet with ⟨⟨reached, e | done⟩, after⟩
  · rw [hrun] at hdone
    exact nomatch hdone
  rw [hrun] at hfiles hbefore hkept hadded
  have hplain : after.store.HasPlainNames := by
    intro entries hentries file e he
    rw [hentries] at hfiles
    have hmem := Dict.mem_keys_iff.mpr ⟨e, he⟩
    rw [show entries.keys = ["sys_middlewares.yaml"] from Option.some.inj hfiles] at hmem
    rw [List.mem_singleton.mp hmem]
    decide
  rcases hadd : outcome (add askingRoute) after with ⟨e | r, last⟩
  · rw [hadd] at hadded
    exact nomatch hadded
  have hlast : run [.add askingRoute] after = last :=
    (outcome_discard_snd (add askingRoute) after).trans (congrArg Prod.snd hadd)
  have hlists : Lists (run [.add askingRoute] after).store r :=
    hlast ▸ lists_of_add hplain (by decide) hkept hadd
  have hroutes : ∀ operation ∈ [Operation.add askingRoute], operation.isOnRoute = true := by
    intro operation hmem
    rw [List.mem_singleton.mp hmem]
    rfl
  obtain ⟨hundefined, hiff⟩ := forwardAuth_run rfl hrun rfl rfl hroutes
  refine ⟨reached, after, rfl, hundefined, r, hlists, (hiff r hlists).mpr ?_⟩
  exact ⟨[], .add askingRoute, [], rfl, rfl, fun hr => (nomatch hr.mem hbefore), hlists⟩

end Fleet

end RouteFleet
