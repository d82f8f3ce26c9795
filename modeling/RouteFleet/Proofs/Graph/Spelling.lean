import RouteFleet.Proofs.Graph.Commute
import RouteFleet.Proofs.Graph.Shown

/-! # References with and without the word that a file defines them

A reference to `name` may be spelled `name` or `name@file`. What a reference speaks of is read off it by
`refName`, which does not tell the two apart (`SpelledAlike.refName_eq`), and a renamed reference is spelled
as it was (`SpelledAlike.renameRef`). All that is asked of a graph looks at references by `refName` alone,
so two graphs whose references are spelled in the two ways show the same routes, are changed by the same
edits, and have the same references that lead nowhere; and whatever is done to both, their references are
again spelled in the two ways.

Main statement: `Graph.SpelledAlike.interchangeable`.
-/

namespace RouteFleet

open Text SharedMiddlewares

/-! ## References -/

/-- Whether two references are the same, but that one may lack the word that a file defines its name. -/
inductive SpelledAlike : String → String → Prop
  | same (ref : String) : SpelledAlike ref ref
  | qualified (name : String) (hplain : '@' ∉ name.toList) : SpelledAlike name (fileRef name)
  | bare (name : String) (hplain : '@' ∉ name.toList) : SpelledAlike (fileRef name) name

namespace SpelledAlike

variable {ref ref' : String} {old new : RouteId} {tag : Tag}

theorem refName_of_plain {name : String} (hplain : '@' ∉ name.toList) : refName name = name := by
  rw [refName, splitLast_eq_none_iff.mpr hplain]

/-- Both spellings speak of the same name. -/
theorem refName_eq (h : SpelledAlike ref ref') : refName ref = refName ref' := by
  cases h with
  | same => rfl
  | qualified _ hplain => rw [refName_of_plain hplain, refName_fileRef]
  | bare _ hplain => rw [refName_of_plain hplain, refName_fileRef]

theorem renameRef_of_plain {name : String} (hplain : '@' ∉ name.toList) :
    RouteFleet.renameRef old new name = renameKey old new name := by
  rw [RouteFleet.renameRef, splitLast_eq_none_iff.mpr hplain]

/-- A renamed reference is spelled as it was. -/
theorem renameRef (hnew : new = RouteId.ofTag old.text tag) (h : SpelledAlike ref ref') :
    SpelledAlike (renameRef old new ref) (renameRef old new ref') := by
  cases h with
  | same => exact .same _
  | qualified _ hplain =>
    rw [renameRef_of_plain hplain, renameRef_fileRef]
    exact .qualified _ (at_notMem_renameKey hnew hplain)
  | bare _ hplain =>
    rw [renameRef_of_plain hplain, renameRef_fileRef]
    exact .bare _ (at_notMem_renameKey hnew hplain)

end SpelledAlike

/-! ## Routers -/

/-- Whether two routers are the same but for the spelling of their references. -/
structure Router.SpelledAlike (r r' : Router) : Prop where
  service : Option.Rel RouteFleet.SpelledAlike r.service r'.service
  middlewares : Option.Rel (List.Forall₂ RouteFleet.SpelledAlike) r.middlewares r'.middlewares
  rest : { r with service := r'.service, middlewares := r'.middlewares } = r'

namespace Router.SpelledAlike

variable {r r' : Router} {old new : RouteId} {tag : Tag}

theorem rule_eq (h : r.SpelledAlike r') : r.rule = r'.rule := by
  rw [← h.rest]

theorem tls_eq (h : r.SpelledAlike r') : r.tls = r'.tls := by
  rw [← h.rest]

theorem refs (h : r.SpelledAlike r') : List.Forall₂ RouteFleet.SpelledAlike r.refs r'.refs :=
  forall₂_getD_of_rel h.middlewares

/-- Both refer to the same middlewares. -/
theorem hasMiddleware_eq (h : r.SpelledAlike r') (name : String) :
    r.hasMiddleware name = r'.hasMiddleware name := by
  refine any_eq_any_of_forall₂ h.refs fun ref ref' href => ?_
  rw [href.refName_eq]

/-- Other middlewares and another TLS block keep the spelling of the service. -/
theorem with_middlewares (h : r.SpelledAlike r') {list list' : Option (List String)}
    (hlist : Option.Rel (List.Forall₂ RouteFleet.SpelledAlike) list list') (tls : Option RouterTls) :
    Router.SpelledAlike { r with middlewares := list, tls } { r' with middlewares := list', tls } := by
  refine ⟨h.service, hlist, ?_⟩
  rw [← h.rest]

theorem withCertResolver (h : r.SpelledAlike r') (name : String) :
    (r.withCertResolver name).SpelledAlike (r'.withCertResolver name) := by
  rw [withCertResolver_eq, withCertResolver_eq, h.tls_eq]
  exact h.with_middlewares h.middlewares _

theorem attach (h : r.SpelledAlike r') (ref : String) : (r.attach ref).SpelledAlike (r'.attach ref) := by
  have hlist : List.Forall₂ RouteFleet.SpelledAlike (r.refs ++ [ref]) (r'.refs ++ [ref]) :=
    List.rel_append h.refs (.cons (.same ref) .nil)
  rw [Router.attach, Router.attach, ← h.tls_eq]
  exact h.with_middlewares (.some hlist) r.tls

theorem rel_nonEmpty? {l l' : List String} (h : List.Forall₂ RouteFleet.SpelledAlike l l') :
    Option.Rel (List.Forall₂ RouteFleet.SpelledAlike) (nonEmpty? l) (nonEmpty? l') := by
  cases h with
  | nil => exact .none
  | cons hhead hrest => exact .some (.cons hhead hrest)

theorem detach (h : r.SpelledAlike r') (name : String) : (r.detach name).SpelledAlike (r'.detach name) := by
  have hlist : List.Forall₂ RouteFleet.SpelledAlike (r.refsWithout name) (r'.refsWithout name) :=
    List.rel_filter (fun _ _ href => by simp only [href.refName_eq]) h.refs
  rw [Router.detach, Router.detach, h.hasMiddleware_eq name]
  split
  · rw [← h.tls_eq]
    exact h.with_middlewares (rel_nonEmpty? hlist) r.tls
  · exact h

theorem edit (h : r.SpelledAlike r') (change : ForwardAuthChange) :
    (change.edit r).SpelledAlike (change.edit r') := by
  cases change with
  | attach =>
    rw [ForwardAuthChange.edit, ForwardAuthChange.edit, Fleet.withForwardAuth, Fleet.withForwardAuth,
      h.hasMiddleware_eq]
    split
    · exact h
    · exact h.attach _
  | detach => exact h.detach _

theorem rename (hnew : new = RouteId.ofTag old.text tag) (h : r.SpelledAlike r') :
    (r.rename old new).SpelledAlike (r'.rename old new) := by
  refine ⟨rel_map_of_rel h.service fun _ _ href => href.renameRef hnew,
    rel_map_of_rel h.middlewares fun _ _ hrefs => List.rel_map (fun _ _ href => href.renameRef hnew) hrefs, ?_⟩
  rw [Router.rename, Router.rename, ← h.rest]

end Router.SpelledAlike

/-! ## References that lead nowhere -/

namespace Graph

/-- Where a reference stands: among the references to middlewares of a router, or as that to its service. -/
inductive RefPlace where
  | middleware (router : String) (index : Nat)
  | service (router : String)
deriving DecidableEq, Repr

/-- The reference at a place. -/
def refAt? (g : Graph) : RefPlace → Option String
  | .middleware k i => (g.http.routers.get? k).bind fun r => r.refs[i]?
  | .service k => (g.http.routers.get? k).bind fun r => r.service

/-- Whether a reference leads to no middleware of the graph and to none of some others. -/
def missesMiddleware (g : Graph) (external : List String) (ref : String) : Bool :=
  !g.http.middlewares.contains (refName ref) && !external.contains (refName ref)

/-- Where the references of one router stand that lead nowhere. -/
def danglingPlacesOf (g : Graph) (external : List String) (k : String) (r : Router) : List RefPlace :=
  ((r.refs.zipIdx.filter fun e => g.missesMiddleware external e.1).map (·.2)).map (.middleware k) ++
    (if (r.service.map refName).all g.http.services.contains then [] else [.service k])

/-- Where the references stand that lead nowhere. -/
def danglingPlaces (g : Graph) (external : List String) : List RefPlace :=
  g.http.routers.entries.flatMap fun e => g.danglingPlacesOf external e.1 e.2

variable {g g' : Graph} {external : List String}

theorem map_refAt?_danglingPlacesOf {k : String} {r : Router} (h : g.http.routers.get? k = some r) :
    (g.danglingPlacesOf external k r).map g.refAt? = (g.danglingOf external r).map some := by
  have hmiddlewares : ((r.refs.zipIdx.filter fun e => g.missesMiddleware external e.1).map (·.2)).map
      (fun i => g.refAt? (.middleware k i)) = (r.refs.filter (g.missesMiddleware external)).map some := by
    have hfound : ∀ e ∈ r.refs.zipIdx.filter (fun e => g.missesMiddleware external e.1),
        g.refAt? (.middleware k e.2) = some e.1 := by
      intro e he
      have hzip := List.mem_zipIdx_iff_getElem?.mp (List.mem_of_mem_filter he)
      rw [refAt?, h, Option.bind_some, hzip]
    rw [List.map_map]
    calc (r.refs.zipIdx.filter fun e => g.missesMiddleware external e.1).map
          ((fun i => g.refAt? (.middleware k i)) ∘ (·.2))
        = (r.refs.zipIdx.filter fun e => g.missesMiddleware external e.1).map (some ∘ (·.1)) :=
          List.map_congr_left hfound
      _ = ((r.refs.zipIdx.map (·.1)).filter (g.missesMiddleware external)).map some := by
          rw [List.filter_map, List.map_map]
          rfl
      _ = (r.refs.filter (g.missesMiddleware external)).map some := by
          rw [List.zipIdx_map_fst]
  rw [danglingPlacesOf, danglingOf, List.map_append, List.map_append, List.map_map]
  refine congrArg₂ (· ++ ·) hmiddlewares ?_
  cases hservice : r.service with
  | none => rfl
  | some service =>
    rw [Option.map_some, Option.all_some]
    dsimp only
    split
    · rfl
    · rw [List.map_singleton, List.map_singleton, refAt?, h, Option.bind_some, hservice]

/-- What is reported to lead nowhere is what stands at these places. -/
theorem map_refAt?_danglingPlaces (g : Graph) (external : List String) :
    (g.danglingPlaces external).map g.refAt? = (g.dangling external).map some := by
  rw [danglingPlaces, dangling, Dict.values, List.map_flatMap, List.map_flatMap, List.flatMap_map]
  refine List.flatMap_congr fun e he => ?_
  exact map_refAt?_danglingPlacesOf (Dict.get?_eq_some_iff.mpr he)

/-! ## Graphs -/

/-- Whether two graphs are the same but for the spelling of references. -/
structure SpelledAlike (g g' : Graph) : Prop where
  routers : g.http.routers.Related Router.SpelledAlike g'.http.routers
  rest : { g with http := { g.http with routers := g'.http.routers } } = g'

namespace SpelledAlike

theorem services_eq (h : g.SpelledAlike g') : g.http.services = g'.http.services := by
  rw [← h.rest]

theorem middlewares_eq (h : g.SpelledAlike g') : g.http.middlewares = g'.http.middlewares := by
  rw [← h.rest]

theorem anyRouterHas_eq (h : g.SpelledAlike g') (name : String) :
    g.anyRouterHas name = g'.anyRouterHas name :=
  any_eq_any_of_forall₂ h.routers.values fun _ _ hr => hr.hasMiddleware_eq name

theorem mapRouters (h : g.SpelledAlike g') {edit : Router → Router}
    (hedit : ∀ r r', r.SpelledAlike r' → (edit r).SpelledAlike (edit r')) :
    (g.mapRouters edit).SpelledAlike (g'.mapRouters edit) := by
  refine ⟨h.routers.map hedit, ?_⟩
  rw [Graph.mapRouters, Graph.mapRouters, ← h.rest]

/-- An edit that changes related routers together changes related graphs together. -/
theorem mapRouters_eq_self_iff (h : g.SpelledAlike g') {edit : Router → Router}
    (hedit : ∀ r r', r.SpelledAlike r' → (edit r = r ↔ edit r' = r')) :
    g.mapRouters edit = g ↔ g'.mapRouters edit = g' := by
  rw [Graph.mapRouters_eq_self_iff, Graph.mapRouters_eq_self_iff]
  exact forall_mem_iff_of_forall₂ h.routers.values hedit

theorem pointAt (h : g.SpelledAlike g') (name : String) :
    (Fleet.pointAt name g = g ↔ Fleet.pointAt name g' = g') ∧
      (Fleet.pointAt name g).SpelledAlike (Fleet.pointAt name g') := by
  refine ⟨h.mapRouters_eq_self_iff fun r r' hr => ?_, h.mapRouters fun r r' hr => hr.withCertResolver name⟩
  simp only [Router.withCertResolver_eq_self_iff, hr.tls_eq]

theorem changeForwardAuth (h : g.SpelledAlike g') (change : ForwardAuthChange) :
    (Fleet.changeForwardAuth change g = g ↔ Fleet.changeForwardAuth change g' = g') ∧
      (Fleet.changeForwardAuth change g).SpelledAlike (Fleet.changeForwardAuth change g') := by
  rw [Fleet.changeForwardAuth_eq, Fleet.changeForwardAuth_eq]
  refine ⟨h.mapRouters_eq_self_iff fun r r' hr => ?_, h.mapRouters fun r r' hr => hr.edit change⟩
  rw [Router.edit_eq_self_iff, Router.edit_eq_self_iff, hr.hasMiddleware_eq]

theorem rename {old new : RouteId} {tag : Tag} (hnew : new = RouteId.ofTag old.text tag)
    (h : g.SpelledAlike g') : (g.rename old new).SpelledAlike (g'.rename old new) := by
  refine ⟨(h.routers.map fun r r' hr => hr.rename hnew).renameKeys old new, ?_⟩
  rw [Graph.rename, Graph.rename, ← h.rest]

theorem danglingPlacesOf_eq (h : g.SpelledAlike g') (k : String) {r r' : Router} (hr : r.SpelledAlike r') :
    g.danglingPlacesOf external k r = g'.danglingPlacesOf external k r' := by
  have hmisses : ∀ ref ref', RouteFleet.SpelledAlike ref ref' →
      g.missesMiddleware external ref = g'.missesMiddleware external ref' := by
    intro ref ref' href
    rw [missesMiddleware, missesMiddleware, href.refName_eq, h.middlewares_eq]
  rw [danglingPlacesOf, danglingPlacesOf, map_snd_filter_zipIdx_of_forall₂ hr.refs hmisses 0, h.services_eq,
    map_eq_map_of_rel hr.service fun _ _ href => href.refName_eq]

/-- The references that lead nowhere stand at the same places. -/
theorem danglingPlaces_eq (h : g.SpelledAlike g') (external : List String) :
    g.danglingPlaces external = g'.danglingPlaces external := by
  refine flatMap_eq_flatMap_of_forall₂ h.routers fun e e' he => ?_
  rw [he.1]
  exact h.danglingPlacesOf_eq e'.1 he.2

theorem primary?_rel (h : g.SpelledAlike g') (id : RouteId) :
    Option.Rel Router.SpelledAlike (g.primary? id) (g'.primary? id) :=
  rel_or_of_rel (h.routers.get? id.httpRouter) (h.routers.get? id.text)

theorem routeShown_eq (h : g.SpelledAlike g') (id : RouteId) {primary primary' : Router}
    (hprimary : primary.SpelledAlike primary') (server : Server) :
    g.routeShown id primary server = g'.routeShown id primary' server := by
  have hplain := h.routers.get? id.httpRouter
  have hsecure := h.routers.get? id.text
  have hhttps := any_eq_any_of_rel hsecure fun _ _ hr => congrArg Option.isSome hr.tls_eq
  have hforceTls := any_eq_any_of_rel hplain fun _ _ hr => hr.hasMiddleware_eq redirect
  have hhsts := any_eq_any_of_rel hsecure fun _ _ hr => hr.hasMiddleware_eq hsts
  rw [routeShown, routeShown, hhttps, hforceTls, hhsts, hprimary.rule_eq, h.anyRouterHas_eq, headersOf,
    headersOf, credentialsOf, credentialsOf, restrictionOf, restrictionOf, h.middlewares_eq]

theorem project_eq (h : g.SpelledAlike g') (id : RouteId) : g.project id = g'.project id := by
  have hprimary := h.primary?_rel id
  rw [Graph.project_eq, Graph.project_eq, h.services_eq]
  generalize g.primary? id = primary, g'.primary? id = primary' at hprimary ⊢
  cases hprimary with
  | none => rfl
  | @some r r' hr =>
    have hname : serviceName id r = serviceName id r' := by
      rw [serviceName, serviceName, map_eq_map_of_rel hr.service fun _ _ href => href.refName_eq]
    simp only [hname, h.routeShown_eq id hr]

/-- What stands at a place is spelled alike. -/
theorem refAt?_rel (h : g.SpelledAlike g') (place : RefPlace) :
    Option.Rel RouteFleet.SpelledAlike (g.refAt? place) (g'.refAt? place) := by
  cases place with
  | middleware k i => exact rel_bind_of_rel (h.routers.get? k) fun _ _ hr => rel_getElem?_of_forall₂ hr.refs i
  | service k => exact rel_bind_of_rel (h.routers.get? k) fun _ _ hr => hr.service

theorem forall₂_dangling (h : g.SpelledAlike g') (external : List String) :
    List.Forall₂ RouteFleet.SpelledAlike (g.dangling external) (g'.dangling external) := by
  have hplaces : List.Forall₂ (Option.Rel RouteFleet.SpelledAlike)
      ((g.danglingPlaces external).map g.refAt?) ((g'.danglingPlaces external).map g'.refAt?) := by
    rw [h.danglingPlaces_eq external, List.forall₂_map_left_iff, List.forall₂_map_right_iff, List.forall₂_same]
    exact fun place _ => h.refAt?_rel place
  rw [map_refAt?_danglingPlaces, map_refAt?_danglingPlaces, List.forall₂_map_left_iff,
    List.forall₂_map_right_iff] at hplaces
  refine hplaces.imp fun ref ref' href => ?_
  cases href with
  | some href => exact href

end SpelledAlike

/-- Whether two graphs are read in the same way, changed by the same edits, and the same but for the
spelling of references whatever is done to both. -/
structure Interchangeable (g g' : Graph) : Prop where
  project : ∀ id, g.project id = g'.project id
  hasMiddleware : ∀ k name, (g.http.routers.get? k).map (·.hasMiddleware name) =
    (g'.http.routers.get? k).map (·.hasMiddleware name)
  anyRouterHas : ∀ name, g.anyRouterHas name = g'.anyRouterHas name
  pointAt : ∀ name, (Fleet.pointAt name g = g ↔ Fleet.pointAt name g' = g') ∧
    (Fleet.pointAt name g).SpelledAlike (Fleet.pointAt name g')
  changeForwardAuth : ∀ change,
    (Fleet.changeForwardAuth change g = g ↔ Fleet.changeForwardAuth change g' = g') ∧
    (Fleet.changeForwardAuth change g).SpelledAlike (Fleet.changeForwardAuth change g')
  rename : ∀ (old : RouteId) (tag : Tag), (g.rename old (.ofTag old.text tag)).SpelledAlike
    (g'.rename old (.ofTag old.text tag))
  danglingPlaces : ∀ external, g.danglingPlaces external = g'.danglingPlaces external
  dangling : ∀ external, List.Forall₂ RouteFleet.SpelledAlike (g.dangling external) (g'.dangling external)

/-- It does not matter whether references are spelled with the word that a file defines their names. -/
theorem SpelledAlike.interchangeable (h : g.SpelledAlike g') : g.Interchangeable g' where
  project id := h.project_eq id
  hasMiddleware k name := map_eq_map_of_rel (h.routers.get? k) fun _ _ hr => hr.hasMiddleware_eq name
  anyRouterHas name := h.anyRouterHas_eq name
  pointAt name := h.pointAt name
  changeForwardAuth change := h.changeForwardAuth change
  rename _ _ := h.rename rfl
  danglingPlaces external := h.danglingPlaces_eq external
  dangling external := h.forall₂_dangling external

end Graph

/-! ## Spelling out -/

/-- A reference with the word that a file defines its name, where no word is there yet. -/
def spellOut (ref : String) : String := if '@' ∈ ref.toList then ref else fileRef ref

/-- A router whose references are spelled out. -/
def Router.spellOut (r : Router) : Router :=
  { r with
    service := r.service.map RouteFleet.spellOut
    middlewares := r.middlewares.map (List.map RouteFleet.spellOut) }

theorem spelledAlike_spellOut (ref : String) : SpelledAlike ref (spellOut ref) := by
  rw [spellOut]
  split
  · exact .same ref
  · rename_i hplain
    exact .qualified ref hplain

theorem Router.spelledAlike_spellOut (r : Router) : r.SpelledAlike r.spellOut where
  service := rel_map_self RouteFleet.spelledAlike_spellOut r.service
  middlewares := rel_map_self (forall₂_map_self RouteFleet.spelledAlike_spellOut) r.middlewares
  rest := rfl

/-- A graph is the same but for spelling once all its references are spelled out. -/
theorem Graph.spelledAlike_spellOut (g : Graph) : g.SpelledAlike (g.mapRouters Router.spellOut) where
  routers := Dict.related_map_self Router.spelledAlike_spellOut g.http.routers
  rest := rfl

theorem Graph.SpelledAlike.interchangeable_testGraph :
    testGraph.SpelledAlike (testGraph.mapRouters Router.spellOut) ∧
    testGraph ≠ testGraph.mapRouters Router.spellOut ∧
    testGraph.Interchangeable (testGraph.mapRouters Router.spellOut) ∧
    (testGraph.danglingPlaces wellKnown).map (testGraph.mapRouters Router.spellOut).refAt? =
      [some "Test-gone@file"] := by
  have halike := testGraph.spelledAlike_spellOut
  exact ⟨halike, by decide +kernel, halike.interchangeable, by decide +kernel⟩

end RouteFleet
