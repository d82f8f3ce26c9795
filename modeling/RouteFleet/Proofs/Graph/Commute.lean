import RouteFleet.Proofs.Fleet.Edit
import RouteFleet.Proofs.Graph.Edit

/-! # Edits of routers that commute

Two edits are independent if they commute and neither decides whether the other changes something
(`Independent`). An edit of the certificate resolver and one of forward authentication are, since the one
reads and writes the TLS block of a router and the other its references
(`Router.independent_withCertResolver`).

An edit of routers also commutes with writing a graph and reading it back, as far as reading goes
(`Graph.ofText?_write_mapRouters`).
-/

namespace RouteFleet

open SharedMiddlewares

/-- Whether two changes commute, and neither decides whether the other changes something. -/
structure Independent {α : Type} (change change' : α → α) : Prop where
  comm : ∀ a, change (change' a) = change' (change a)
  fixed : ∀ a, change (change' a) = change' a ↔ change a = a
  fixed' : ∀ a, change' (change a) = change a ↔ change' a = a

theorem Independent.symm {α : Type} {change change' : α → α} (h : Independent change change') :
    Independent change' change :=
  ⟨fun a => (h.comm a).symm, h.fixed', h.fixed⟩

/-! ## Edits of one router -/

/-- What a change of forward authentication does to a router. -/
def ForwardAuthChange.edit : ForwardAuthChange → Router → Router
  | .attach, r => Fleet.withForwardAuth r
  | .detach, r => r.detach forwardAuthName

theorem Fleet.changeForwardAuth_eq (change : ForwardAuthChange) (g : Graph) :
    changeForwardAuth change g = g.mapRouters change.edit := by
  cases change <;> rfl

namespace Router

variable {r : Router} {name : String} {change : ForwardAuthChange}

theorem withCertResolver_eq_self_iff :
    r.withCertResolver name = r ↔ ∀ tls ∈ r.tls, tls.certResolver = some name := by
  refine ⟨fun h tls htls => ?_, withCertResolver_eq_self⟩
  have hset := r.tls_withCertResolver name
  rw [h, Option.mem_def.mp htls, Option.map_some, Option.some.injEq] at hset
  rw [hset]

theorem edit_attach_eq_self_iff :
    Fleet.withForwardAuth r = r ↔ r.hasMiddleware forwardAuthName = true := by
  rw [Fleet.withForwardAuth]
  by_cases h : r.hasMiddleware forwardAuthName = true
  · simp [h]
  · rw [if_neg h, iff_false_right h]
    intro heq
    have hrefs : r.refs ++ [fileRef forwardAuthName] = r.refs := congrArg Router.refs heq
    simp at hrefs

theorem detach_eq_self_iff : r.detach name = r ↔ r.hasMiddleware name = false :=
  ⟨fun h => h ▸ hasMiddleware_detach, detach_eq_self⟩

/-- Whether a change of forward authentication changes a router depends on its references alone. -/
theorem edit_eq_self_iff : change.edit r = r ↔
    r.hasMiddleware forwardAuthName = decide (change = .attach) := by
  cases change with
  | attach => exact edit_attach_eq_self_iff
  | detach => exact detach_eq_self_iff

@[simp] theorem tls_edit : (change.edit r).tls = r.tls := by
  cases change with
  | attach =>
    rw [ForwardAuthChange.edit, Fleet.withForwardAuth]
    split <;> rfl
  | detach => exact r.tls_detach forwardAuthName

theorem withCertResolver_eq : r.withCertResolver name =
    { r with tls := r.tls.map fun tls => { tls with certResolver := some name } } := by
  rw [withCertResolver]
  split
  · rename_i htls
    rw [htls]
    rfl
  · rename_i htls
    rw [htls]
    obtain ⟨entryPoints, rule, service, _, middlewares, extra⟩ := r
    obtain rfl := htls
    rfl

/-- A change of forward authentication does not look at the TLS block. -/
theorem edit_with_tls (tls : Option RouterTls) :
    change.edit { r with tls := tls } = { change.edit r with tls := tls } := by
  cases change with
  | attach =>
    rw [ForwardAuthChange.edit, ForwardAuthChange.edit, Fleet.withForwardAuth, Fleet.withForwardAuth]
    show (if r.hasMiddleware forwardAuthName = true then _ else _) = _
    split <;> rfl
  | detach =>
    rw [ForwardAuthChange.edit, ForwardAuthChange.edit, detach, detach]
    show (if r.hasMiddleware forwardAuthName = true then _ else _) = _
    split <;> rfl

theorem hasMiddleware_withCertResolver (name' : String) :
    (r.withCertResolver name).hasMiddleware name' = r.hasMiddleware name' := by
  rw [hasMiddleware, refs_withCertResolver, hasMiddleware]

/-- A certificate resolver and forward authentication are set independently. -/
theorem independent_withCertResolver (name : String) (change : ForwardAuthChange) :
    Independent (·.withCertResolver name) change.edit where
  comm r := by
    show (change.edit r).withCertResolver name = change.edit (r.withCertResolver name)
    rw [@withCertResolver_eq r, withCertResolver_eq, tls_edit]
    exact (edit_with_tls _).symm
  fixed r := by simp only [withCertResolver_eq_self_iff, tls_edit]
  fixed' r := by simp only [edit_eq_self_iff, hasMiddleware_withCertResolver]

theorem sound_edit (d : Nat) (r : Router) (h : r.Sound d) : (change.edit r).Sound d := by
  have hextra : (change.edit r).extra = r.extra := by
    cases change with
    | attach =>
      rw [ForwardAuthChange.edit, Fleet.withForwardAuth]
      split <;> rfl
    | detach => exact r.extra_detach forwardAuthName
  refine ⟨?_, hextra ▸ h.extra⟩
  rw [tls_edit]
  exact h.tls

end Router

/-! ## Edits of one graph -/

namespace Graph

variable {g g' : Graph} {edit edit' : Router → Router}

theorem mapRouters_eq_self_iff :
    g.mapRouters edit = g ↔ ∀ r ∈ g.http.routers.values, edit r = r := by
  refine ⟨fun h r hr => ?_, mapRouters_eq_self⟩
  obtain ⟨k, hk⟩ := Dict.mem_values_iff.mp hr
  have hsame : g.http.routers.map edit = g.http.routers := congrArg (fun g => g.http.routers) h
  have hedited := Dict.get?_map edit g.http.routers k
  rw [hsame, hk, Option.map_some, Option.some.injEq] at hedited
  exact hedited.symm

/-- What is read back has the same routers, so an edit changes it or not as before. -/
theorem RereadAs.mapRouters_eq_self_iff (h : g.RereadAs g') :
    g'.mapRouters edit = g' ↔ g.mapRouters edit = g := by
  rw [Graph.mapRouters_eq_self_iff, Graph.mapRouters_eq_self_iff, h.routers]

theorem mapRouters_mapRouters (g : Graph) (edit edit' : Router → Router) :
    (g.mapRouters edit).mapRouters edit' = g.mapRouters fun r => edit' (edit r) := by
  have hrouters : (g.http.routers.map edit).map edit' = g.http.routers.map fun r => edit' (edit r) := by
    refine Dict.ext_get? fun k => ?_
    rw [Dict.get?_map, Dict.get?_map, Dict.get?_map, Option.map_map]
    rfl
  rw [mapRouters, mapRouters, mapRouters, ← hrouters]

theorem mapRouters_comm (h : Independent edit edit') (g : Graph) :
    (g.mapRouters edit).mapRouters edit' = (g.mapRouters edit').mapRouters edit := by
  rw [mapRouters_mapRouters, mapRouters_mapRouters]
  exact congrArg g.mapRouters (funext fun r => (h.comm r).symm)

/-- An edit changes what an independent one made if and only if it changes what there was before. -/
theorem mapRouters_eq_self_iff_of_independent (h : Independent edit edit') :
    (g.mapRouters edit').mapRouters edit = g.mapRouters edit' ↔ g.mapRouters edit = g := by
  rw [mapRouters_eq_self_iff, mapRouters_eq_self_iff]
  constructor
  · intro hfixed r hr
    exact (h.fixed r).mp (hfixed _ (mem_routers_mapRouters.mpr ⟨r, hr, rfl⟩))
  · intro hfixed r hr
    obtain ⟨r₀, hr₀, rfl⟩ := mem_routers_mapRouters.mp hr
    exact (h.fixed r₀).mpr (hfixed r₀ hr₀)

/-- What is read back of an edited graph is the edit of what is read back of the graph. -/
theorem ofText?_write_mapRouters (hedit : ∀ d (r : Router), r.Sound d → (edit r).Sound d)
    (h : g.Sound extraDepth) :
    ofText? (g.mapRouters edit).toValue.write = (ofText? g.toValue.write).map (·.mapRouters edit) := by
  have hempty : (g.mapRouters edit).http.isEmpty = g.http.isEmpty := by
    have hrouters : (g.http.routers.map edit).isEmpty = g.http.routers.isEmpty := List.isEmpty_map
    rw [HttpSection.isEmpty, HttpSection.isEmpty, ← hrouters]
    rfl
  rw [ofText?, ofText?, nodeOfText?_write h, nodeOfText?_write (h.mapRouters hedit),
    allTags_mapRouters h hedit]
  split
  swap
  · rfl
  rw [Option.bind_some, Option.bind_some, ofNode?_toValue h, ofNode?_toValue (h.mapRouters hedit),
    hempty]
  split
  · rfl
  · rw [HttpSection.ofNode?_toValue h.http, HttpSection.ofNode?_toValue (h.mapRouters hedit).http,
      Option.map_map, Option.map_map, Option.map_map]
    rfl

/-! ## Changes of graphs -/

/-- Whether a change of graphs decides nothing about what can be written, and comes to the same before a
graph is written and read back as after. -/
structure Steady (change : Graph → Graph) : Prop where
  isWritable : ∀ g, (change g).isWritable = g.isWritable
  ofText? : ∀ {g}, g.Sound extraDepth →
    ofText? (change g).toValue.write = (Graph.ofText? g.toValue.write).map change
  fixed : ∀ {g g'}, g.RereadAs g' → (change g' = g' ↔ change g = g)

theorem steady_mapRouters (h : ∀ d (r : Router), r.Sound d → (edit r).Sound d)
    (hwritable : ∀ g, (mapRouters g edit).isWritable = g.isWritable) : Steady (·.mapRouters edit) where
  isWritable := hwritable
  ofText? := ofText?_write_mapRouters h
  fixed hreread := hreread.mapRouters_eq_self_iff

theorem independent_mapRouters (h : Independent edit edit') :
    Independent (mapRouters · edit) (mapRouters · edit') where
  comm g := (mapRouters_comm h g).symm
  fixed _ := mapRouters_eq_self_iff_of_independent h
  fixed' _ := mapRouters_eq_self_iff_of_independent h.symm

end Graph

/-! ## The two edits -/

namespace Fleet

variable (name : String) (change : ForwardAuthChange)

theorem steady_pointAt : Graph.Steady (pointAt name) :=
  Graph.steady_mapRouters (Graph.sound_withCertResolver name) (isWritable_pointAt name)

theorem steady_changeForwardAuth : Graph.Steady (changeForwardAuth change) := by
  have hwritable := isWritable_changeForwardAuth change
  rw [funext (changeForwardAuth_eq change)] at hwritable ⊢
  exact Graph.steady_mapRouters (fun d r => Router.sound_edit d r) hwritable

/-- A certificate resolver and forward authentication are set independently. -/
theorem independent_pointAt : Independent (pointAt name) (changeForwardAuth change) := by
  rw [funext (changeForwardAuth_eq change)]
  exact Graph.independent_mapRouters (Router.independent_withCertResolver name change)

end Fleet

end RouteFleet
