import RouteFleet.Proofs.Graph.Text
import RouteFleet.Proofs.Projection

/-! # Graphs in which all is managed

In a graph that this library made itself nothing stands beside the managed fields, and each middleware
is of a managed kind (`Graph.Managed`). Such a graph can be written, and is read back as it was
(`Fleet.exists_bytesOf_of_managed`). All that compiling makes is such a graph, whatever texts the route
consists of, so it survives being stored (`Fleet.exists_bytesOf_compile`).
-/

namespace RouteFleet

open Yaml Value

variable {d : Nat}

/-! ## Managed parts -/

/-- A router beside whose fields nothing stands. -/
structure Router.Managed (r : Router) : Prop where
  tls : ∀ t ∈ r.tls, t.extra = .empty
  extra : r.extra = .empty

/-- A load balancer beside whose fields nothing stands. -/
structure LoadBalancer.Managed (b : LoadBalancer) : Prop where
  servers : ∀ l ∈ b.servers, ∀ s ∈ l, s.extra = .empty
  extra : b.extra = .empty

/-- A service beside whose fields nothing stands. -/
structure Service.Managed (s : Service) : Prop where
  loadBalancer : ∀ b ∈ s.loadBalancer, b.Managed
  extra : s.extra = .empty

/-- A middleware of a managed kind beside whose fields nothing stands. -/
def Middleware.Managed : Middleware → Prop
  | .redirectScheme m => m.extra = .empty
  | .headers m => m.extra = .empty
  | .basicAuth m => m.extra = .empty
  | .ipWhiteList m => (∀ s ∈ m.ipStrategy, s.extra = .empty) ∧ m.extra = .empty
  | .forwardAuth m => m.extra = .empty
  | .other _ => False

/-- A graph in which all is managed. -/
structure Graph.Managed (g : Graph) : Prop where
  routers : ∀ r ∈ g.http.routers.values, r.Managed
  services : ∀ s ∈ g.http.services.values, s.Managed
  middlewares : ∀ m ∈ g.http.middlewares.values, m.Managed
  httpExtra : g.http.extra = .empty
  extra : g.extra = .empty

/-! ## Managed parts are sound -/

theorem Extra.sound_of_eq_empty {known : List String} {e : Extra} (h : e = .empty) :
    e.Sound known d := by
  subst h
  exact ⟨List.forall_mem_nil _, List.forall_mem_nil _, List.forall_mem_nil _⟩

theorem Extra.isWritable_of_eq_empty {e : Extra} (h : e = .empty) : Extra.isWritable e = true := by
  subst h
  rfl

theorem Router.Managed.sound {r : Router} (h : r.Managed) : r.Sound d :=
  ⟨fun t ht => Extra.sound_of_eq_empty (h.tls t ht), Extra.sound_of_eq_empty h.extra⟩

theorem LoadBalancer.Managed.sound {b : LoadBalancer} (h : b.Managed) : b.Sound d :=
  ⟨fun l hl s hs => Extra.sound_of_eq_empty (h.servers l hl s hs), Extra.sound_of_eq_empty h.extra⟩

theorem Service.Managed.sound {s : Service} (h : s.Managed) : s.Sound d :=
  ⟨fun b hb => (h.loadBalancer b hb).sound, Extra.sound_of_eq_empty h.extra⟩

theorem Middleware.Managed.sound {m : Middleware} (h : m.Managed) : m.Sound d := by
  cases m with
  | redirectScheme m => exact Extra.sound_of_eq_empty h
  | headers m => exact Extra.sound_of_eq_empty h
  | basicAuth m => exact Extra.sound_of_eq_empty h
  | ipWhiteList m =>
    exact ⟨fun s hs => Extra.sound_of_eq_empty (h.1 s hs), Extra.sound_of_eq_empty h.2⟩
  | forwardAuth m => exact Extra.sound_of_eq_empty h
  | other entries => exact h.elim

theorem Middleware.Managed.isOther_eq_false {m : Middleware} (h : m.Managed) : m.isOther = false := by
  cases m with
  | other entries => exact h.elim
  | _ => rfl

theorem Graph.Managed.sound {g : Graph} (h : g.Managed) : g.Sound d :=
  ⟨⟨fun r hr => (h.routers r hr).sound, fun s hs => (h.services s hs).sound,
    fun m hm => (h.middlewares m hm).sound, Extra.sound_of_eq_empty h.httpExtra⟩,
    Extra.sound_of_eq_empty h.extra⟩

/-- There are no tags where all is managed. -/
theorem Graph.Managed.allTags {g : Graph} (h : g.Managed) (p : String → Bool) :
    g.toValue.allTags p = true := by
  rw [Graph.allTags_toValue (h.sound (d := 0))]
  intro m hm
  have hmanaged := h.middlewares m hm
  exact allTags_of_isBare p _
    (Middleware.clean_toValue (hmanaged.sound (d := 0)) hmanaged.isOther_eq_false).bare

/-! ## Managed parts can be written -/

theorem Router.Managed.isWritable {r : Router} (h : r.Managed) : r.isWritable = true := by
  rw [Router.isWritable, Extra.isWritable_of_eq_empty h.extra, Bool.and_true]
  split
  · rename_i t ht
    exact Extra.isWritable_of_eq_empty (h.tls t ht)
  · rfl

theorem Service.Managed.isWritable {s : Service} (h : s.Managed) : s.isWritable = true := by
  rw [Service.isWritable, Extra.isWritable_of_eq_empty h.extra, Bool.and_true]
  split
  · rename_i b hb
    have hmanaged := h.loadBalancer b hb
    rw [Extra.isWritable_of_eq_empty hmanaged.extra, Bool.and_true, List.all_eq_true]
    intro server hserver
    refine Extra.isWritable_of_eq_empty ?_
    rw [LoadBalancer.serverList] at hserver
    cases hl : b.servers with
    | none =>
      rw [hl] at hserver
      exact absurd hserver List.not_mem_nil
    | some l =>
      rw [hl] at hserver
      exact hmanaged.servers l hl server hserver
  · rfl

theorem Middleware.Managed.isWritable {m : Middleware} (h : m.Managed) : m.isWritable = true := by
  cases m with
  | redirectScheme m => exact Extra.isWritable_of_eq_empty h
  | headers m => exact Extra.isWritable_of_eq_empty h
  | basicAuth m => exact Extra.isWritable_of_eq_empty h
  | ipWhiteList m =>
    rw [Middleware.isWritable, Extra.isWritable_of_eq_empty h.2, Bool.and_true]
    split
    · rename_i s hs
      exact Extra.isWritable_of_eq_empty (h.1 s hs)
    · rfl
  | forwardAuth m => exact Extra.isWritable_of_eq_empty h
  | other entries => exact h.elim

theorem Graph.Managed.isWritable {g : Graph} (h : g.Managed) : g.isWritable = true := by
  simp only [Graph.isWritable, Bool.and_eq_true, List.all_eq_true]
  exact ⟨⟨⟨⟨fun r hr => (h.routers r hr).isWritable, fun s hs => (h.services s hs).isWritable⟩,
    fun m hm => (h.middlewares m hm).isWritable⟩, Extra.isWritable_of_eq_empty h.httpExtra⟩,
    Extra.isWritable_of_eq_empty h.extra⟩

/-- A graph in which all is managed is written, and read back as it was. -/
theorem Fleet.exists_bytesOf_of_managed {g : Graph} (h : g.Managed) (key : String) :
    ∃ bytes, bytesOf key g = .ok bytes ∧ graphOf key bytes = .ok g :=
  (exists_bytesOf_iff h.sound).mpr ⟨h.isWritable, h.allTags isKeptTag⟩

/-! ## Compiled graphs -/

namespace Compiler

theorem managed_ownMiddlewares (c : Compiler) (id : RouteId) (route : Route) (users : List String)
    {k : String} {m : Middleware} (h : (k, m) ∈ c.ownMiddlewares id route users) : m.Managed := by
  rcases (c.mem_ownMiddlewares_iff id route users).mp h with h | h | h
  · obtain ⟨-, -, rfl⟩ := (c.mem_headersMiddleware_iff id route).mp h
    rfl
  · obtain ⟨-, -, rfl⟩ := (mem_basicAuthMiddleware_iff id users).mp h
    rfl
  · obtain ⟨r, -, -, -, rfl⟩ := (mem_ipMiddleware_iff id route).mp h
    refine ⟨fun s hs => ?_, rfl⟩
    replace hs : depthOf r.depth = some s := hs
    rw [depthOf] at hs
    split at hs
    · obtain rfl := Option.some.inj hs
      rfl
    · cases hs

/-- All is managed in what compiling makes. -/
theorem managed_graphOf (c : Compiler) (id : RouteId) (route : Route) (users : List String) :
    (c.graphOf id route users).Managed := by
  refine ⟨fun r hr => ?_, fun s hs => ?_, fun m hm => ?_, rfl, rfl⟩
  · rcases (c.mem_routers_iff id route users).mp hr with rfl | ⟨-, rfl⟩
    · refine ⟨?_, rfl⟩
      rintro t ⟨⟩
    · refine ⟨?_, rfl⟩
      rintro t ⟨⟩
      rfl
  · obtain ⟨k, hk⟩ := Dict.mem_values_iff.mp hs
    rw [get?_services] at hk
    split at hk
    · obtain rfl := Option.some.inj hk
      refine ⟨?_, rfl⟩
      rintro b ⟨⟩
      refine ⟨?_, rfl⟩
      rintro l ⟨⟩ server hserver
      obtain rfl := List.mem_singleton.mp hserver
      rfl
    · exact nomatch hk
  · obtain ⟨k, hk⟩ := Dict.mem_values_iff.mp hm
    exact c.managed_ownMiddlewares id route users ((c.get?_middlewares id route users).mp hk)

end Compiler

/-- Each route whose passwords can be hashed is compiled to a graph that is written, and read back as
it was. What the texts of the route, its identity, the resolver and the hashes are does not matter. -/
theorem Fleet.exists_bytesOf_compile (c : Compiler) (id : RouteId) (route : Route)
    (hash : String → String)
    (hhash : ∀ e ∈ route.activeCredentials, c.hasher e.password = .ok (hash e.password))
    (key : String) :
    ∃ g bytes, c.compile id route = .ok g ∧ bytesOf key g = .ok bytes ∧
      graphOf key bytes = .ok g := by
  obtain ⟨bytes, hwrite, hread⟩ := exists_bytesOf_of_managed (c.managed_graphOf id route
    (route.activeCredentials.map fun e => e.username ++ ":" ++ hash e.password)) key
  exact ⟨_, bytes, c.compile_eq_ok id hhash, hwrite, hread⟩

/-- A route whose texts look like other things than texts. -/
def oddRoute : Route where
  name := "odd"
  domain := "odd.example.com"
  backend := { url := "http://10.0.0.5:", healthy := true }
  headers := [{ name := "null", value := " at $ServerIP\t" }, { name := "123", value := "1e3" },
    { name := "---", value := "é: # 'x'" }]
  basicAuth := [{ username := "0x10", password := "secret" }]

theorem Fleet.exists_bytesOf_compile_oddRoute : oddRoute.validate.isValid = true ∧
    (∀ e ∈ oddRoute.activeCredentials, Hasher.marking e.password = .ok ("$static$" ++ e.password)) ∧
      ∃ g bytes, Compiler.compile ⟨"", Hasher.marking, none⟩ ⟨"odd_0a1b2c3d"⟩ oddRoute = .ok g ∧
        bytesOf "odd_0a1b2c3d" g = .ok bytes ∧ graphOf "odd_0a1b2c3d" bytes = .ok g := by
  have hhash : ∀ e ∈ oddRoute.activeCredentials,
      Hasher.marking e.password = .ok ("$static$" ++ e.password) := fun _ _ => rfl
  exact ⟨by decide +kernel, hhash, exists_bytesOf_compile ⟨"", Hasher.marking, none⟩ ⟨"odd_0a1b2c3d"⟩
    oddRoute (fun p => "$static$" ++ p) hhash "odd_0a1b2c3d"⟩

end RouteFleet
