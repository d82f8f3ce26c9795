import RouteFleet.Fleet.Bulk
import RouteFleet.Proofs.Graph.Dangling

/-! # Edited graphs

An edit of routers leaves all else of a graph alone, so the graph is still sound, has the same tags, and
leads where it led unless references are changed (`Graph.Sound.mapRouters`, `Graph.allTags_mapRouters`,
`Graph.dangling_mapRouters`).

A graph that is pointed at a certificate resolver has it in each TLS block, and one that has it there is
left alone (`Graph.isResolvedBy_pointAt`, `Graph.pointAt_eq_self`). A graph from which forward
authentication is detached does not refer to it, and one that does not is left alone
(`Graph.anyRouterHas_detach`, `Graph.detach_eq_self`).
-/

namespace RouteFleet

/-! ## Edited routers -/

namespace Router

variable (r : Router) (name : String)

@[simp] theorem service_withCertResolver : (r.withCertResolver name).service = r.service := by
  rw [withCertResolver]
  split <;> rfl

@[simp] theorem extra_withCertResolver : (r.withCertResolver name).extra = r.extra := by
  rw [withCertResolver]
  split <;> rfl

@[simp] theorem refs_withCertResolver : (r.withCertResolver name).refs = r.refs := by
  rw [withCertResolver]
  split <;> rfl

@[simp] theorem tls_withCertResolver : (r.withCertResolver name).tls =
    r.tls.map fun tls => { tls with certResolver := some name } := by
  rw [withCertResolver]
  split
  · rename_i tls htls
    rw [htls]
    rfl
  · rename_i htls
    rw [htls]
    rfl

@[simp] theorem service_detach : (r.detach name).service = r.service := by
  rw [detach]
  split <;> rfl

@[simp] theorem extra_detach : (r.detach name).extra = r.extra := by
  rw [detach]
  split <;> rfl

@[simp] theorem tls_detach : (r.detach name).tls = r.tls := by
  rw [detach]
  split <;> rfl

@[simp] theorem getD_nonEmpty? (l : List String) : (nonEmpty? l).getD [] = l := by
  cases l <;> rfl

@[simp] theorem refs_detach : (r.detach name).refs = r.refsWithout name := by
  rw [detach]
  split
  · exact getD_nonEmpty? _
  · rename_i hnone
    rw [hasMiddleware, List.any_eq_true, not_exists] at hnone
    rw [refsWithout, eq_comm, List.filter_eq_self]
    intro ref href
    simpa using fun heq => hnone ref ⟨href, decide_eq_true heq⟩

variable {r name}

theorem withCertResolver_eq_self (h : ∀ tls ∈ r.tls, tls.certResolver = some name) :
    r.withCertResolver name = r := by
  rw [withCertResolver]
  split
  · rename_i tls htls
    obtain ⟨entryPoints, rule, service, _, middlewares, extra⟩ := r
    obtain rfl := htls
    rw [← h tls rfl]
  · rfl

theorem detach_eq_self (h : r.hasMiddleware name = false) : r.detach name = r :=
  if_neg (Bool.eq_false_iff.mp h)

theorem mem_refs_detach {ref : String} : ref ∈ (r.detach name).refs ↔ ref ∈ r.refs ∧ refName ref ≠ name := by
  rw [refs_detach, refsWithout, List.mem_filter, decide_eq_true_eq]

theorem hasMiddleware_detach : (r.detach name).hasMiddleware name = false := by
  rw [Bool.eq_false_iff, hasMiddleware, ne_eq, List.any_eq_true]
  rintro ⟨ref, href, hspeaks⟩
  exact (mem_refs_detach.mp href).2 (of_decide_eq_true hspeaks)

end Router

/-! ## Edited graphs -/

namespace Graph

variable {g : Graph} {edit : Router → Router} {name : String}

theorem mem_routers_mapRouters {r : Router} :
    r ∈ (g.mapRouters edit).http.routers.values ↔ ∃ r₀ ∈ g.http.routers.values, edit r₀ = r :=
  Dict.mem_values_map

theorem mapRouters_eq_self (h : ∀ r ∈ g.http.routers.values, edit r = r) : g.mapRouters edit = g := by
  have hrouters : g.http.routers.map edit = g.http.routers := by
    refine Dict.ext_get? fun k => ?_
    rw [Dict.get?_map]
    cases hk : g.http.routers.get? k with
    | none => rfl
    | some r => exact congrArg some (h r (Dict.mem_values_iff.mpr ⟨k, hk⟩))
  rw [mapRouters, hrouters]

theorem Sound.mapRouters {d : Nat} (h : g.Sound d) (hedit : ∀ n (r : Router), r.Sound n → (edit r).Sound n) :
    (g.mapRouters edit).Sound d := by
  refine ⟨⟨fun r hr => ?_, h.http.services, h.http.middlewares, h.http.extra⟩, h.extra⟩
  obtain ⟨r₀, hr₀, rfl⟩ := mem_routers_mapRouters.mp hr
  exact hedit _ r₀ (h.http.routers r₀ hr₀)

/-- The tags of a graph are those of its middlewares, which an edit of routers leaves alone. -/
theorem allTags_mapRouters {d : Nat} (h : g.Sound d) (hedit : ∀ n (r : Router), r.Sound n → (edit r).Sound n)
    (p : String → Bool) : (g.mapRouters edit).toValue.allTags p = g.toValue.allTags p := by
  rw [Bool.eq_iff_iff, allTags_toValue h, allTags_toValue (h.mapRouters hedit)]
  rfl

/-- A graph leads somewhere after an edit if the references that are left do. -/
theorem dangling_mapRouters {external external' : List String}
    (hservice : ∀ r, (edit r).service = r.service)
    (hrefs : ∀ r, ∀ ref ∈ (edit r).refs, ref ∈ r.refs ∧ (refName ref ∈ external → refName ref ∈ external'))
    (h : g.dangling external = []) : (g.mapRouters edit).dangling external' = [] := by
  rw [dangling_eq_nil_iff] at h ⊢
  intro r hr
  obtain ⟨r₀, hr₀, rfl⟩ := mem_routers_mapRouters.mp hr
  constructor
  · intro ref href
    obtain ⟨hbefore, hexternal⟩ := hrefs r₀ ref href
    exact ((h r₀ hr₀).refs ref hbefore).imp_left hexternal
  · intro service hmem
    exact (h r₀ hr₀).service service (hservice r₀ ▸ hmem)

/-! ## The certificate resolver -/

/-- Whether each TLS block of a graph is pointed at a certificate resolver. -/
def IsResolvedBy (name : String) (g : Graph) : Prop :=
  ∀ r ∈ g.http.routers.values, ∀ tls ∈ r.tls, tls.certResolver = some name

theorem isResolvedBy_pointAt (name : String) (g : Graph) : (Fleet.pointAt name g).IsResolvedBy name := by
  intro r hr tls htls
  obtain ⟨r₀, -, rfl⟩ := mem_routers_mapRouters.mp hr
  rw [Router.tls_withCertResolver] at htls
  obtain ⟨tls₀, -, rfl⟩ := Option.map_eq_some_iff.mp htls
  rfl

theorem pointAt_eq_self (h : g.IsResolvedBy name) : Fleet.pointAt name g = g :=
  mapRouters_eq_self fun r hr => Router.withCertResolver_eq_self (h r hr)

theorem RereadAs.isResolvedBy {g' : Graph} (h : g.RereadAs g') (hname : g.IsResolvedBy name) :
    g'.IsResolvedBy name := by
  rw [IsResolvedBy, h.routers]
  exact hname

theorem sound_withCertResolver (name : String) (d : Nat) (r : Router) (h : r.Sound d) :
    (r.withCertResolver name).Sound d := by
  refine ⟨fun tls htls => ?_, r.extra_withCertResolver name ▸ h.extra⟩
  rw [Router.tls_withCertResolver] at htls
  obtain ⟨tls₀, htls₀, rfl⟩ := Option.map_eq_some_iff.mp htls
  exact h.tls tls₀ htls₀

theorem dangling_pointAt {external : List String} (h : g.dangling external = []) :
    (Fleet.pointAt name g).dangling external = [] := by
  refine dangling_mapRouters (fun r => r.service_withCertResolver name) (fun r ref href => ?_) h
  exact ⟨r.refs_withCertResolver name ▸ href, id⟩

/-! ## Forward authentication -/

open SharedMiddlewares

theorem anyRouterHas_detach (g : Graph) :
    (Fleet.changeForwardAuth .detach g).anyRouterHas forwardAuthName = false := by
  rw [Bool.eq_false_iff, anyRouterHas, ne_eq, List.any_eq_true]
  rintro ⟨r, hr, hhas⟩
  obtain ⟨r₀, -, rfl⟩ := mem_routers_mapRouters.mp hr
  rw [Router.hasMiddleware_detach] at hhas
  exact Bool.false_ne_true hhas

theorem RereadAs.anyRouterHas_eq {g' : Graph} (h : g.RereadAs g') (name : String) :
    g'.anyRouterHas name = g.anyRouterHas name := by
  rw [anyRouterHas, anyRouterHas, h.routers]

theorem IsResolvedBy.detach (h : g.IsResolvedBy name) :
    (Fleet.changeForwardAuth .detach g).IsResolvedBy name := by
  intro r hr tls htls
  obtain ⟨r₀, hr₀, rfl⟩ := mem_routers_mapRouters.mp hr
  exact h r₀ hr₀ tls (r₀.tls_detach forwardAuthName ▸ htls)

theorem detach_eq_self (h : g.anyRouterHas forwardAuthName = false) :
    Fleet.changeForwardAuth .detach g = g := by
  refine mapRouters_eq_self fun r hr => Router.detach_eq_self ?_
  rw [anyRouterHas, List.any_eq_false] at h
  exact Bool.eq_false_iff.mpr (h r hr)

theorem sound_detach (name : String) (d : Nat) (r : Router) (h : r.Sound d) : (r.detach name).Sound d :=
  ⟨r.tls_detach name ▸ h.tls, r.extra_detach name ▸ h.extra⟩

/-- A graph that leads somewhere does so without forward authentication once that is detached. -/
theorem dangling_detach {external external' : List String}
    (hexternal : ∀ name ∈ external, name ≠ forwardAuthName → name ∈ external')
    (h : g.dangling external = []) : (Fleet.changeForwardAuth .detach g).dangling external' = [] := by
  refine dangling_mapRouters (fun r => r.service_detach forwardAuthName) (fun r ref href => ?_) h
  obtain ⟨hbefore, hother⟩ := Router.mem_refs_detach.mp href
  exact ⟨hbefore, fun hmem => hexternal _ hmem hother⟩

end Graph

end RouteFleet
