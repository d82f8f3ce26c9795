import RouteFleet.Projection
import RouteFleet.Proofs.Compile
import RouteFleet.Proofs.Route.Valid
import RouteFleet.Proofs.Text.Split

/-! # Compiling and showing again

What an operator is shown of a compiled route is the route in a normal form (`Route.normalForm`):
unused slots are gone, passwords are hashes, and what encryption alone makes sense of is off where
there is no encryption. Of several headers with one name the last is shown
(`Compiler.ShowsHeaders`).

Main statement: `Compiler.project_compile`.
-/

namespace RouteFleet

open Text

/-! ## The normal form -/

namespace Route

/-- Of the active headers with a name, the last. -/
def lastHeader? (r : Route) (name : String) : Option HeaderEntry :=
  r.activeHeaders.reverse.find? (·.name = name)

/-- The restriction with its active addresses; none if there are no such addresses. -/
def shownRestriction (r : Route) : Option IpRestriction :=
  r.ipRestriction.bind fun i =>
    if i.activeIps.isEmpty then none else some { depth := i.depth, ips := i.activeIps }

/-- The route as it is shown under an identity after it was compiled. -/
def normalForm (r : Route) (id : RouteId) (headers : List HeaderEntry) (hash : String → String) :
    Route where
  id := some id
  name := id.name
  domain := r.domain
  backend := { url := r.backend.url, healthy := false }
  forwardAuth := r.forwardAuth
  https := r.https
  forceTls := r.https && r.forceTls
  hsts := r.https && r.hsts
  headers := headers
  basicAuth := r.activeCredentials.map fun e => { username := e.username, password := hash e.password }
  ipRestriction := r.shownRestriction

end Route

/-- Whether `headers` are those to show of a route: one for each name, in ascending order of the
names, with the value of the last active header of the name and the host's own address in it. -/
def Compiler.ShowsHeaders (c : Compiler) (r : Route) (headers : List HeaderEntry) : Prop :=
  headers.Pairwise (fun h h' => Before h.name h'.name) ∧
    ∀ h, h ∈ headers ↔ ∃ e, r.lastHeader? h.name = some e ∧ h.value = c.resolveValue e.value

/-! ## Domains and credentials -/

namespace Graph

theorem hostOf_ruleOf (r : Route) : hostOf (Compiler.ruleOf r) = r.domain := by
  have hlead : stripLead? "Host(`" (Compiler.ruleOf r) = some (r.domain ++ "`)") :=
    stripLead?_eq_some_iff.mpr (String.append_assoc ..)
  have htail : stripTail? "`)" (r.domain ++ "`)") = some r.domain := stripTail?_eq_some_iff.mpr rfl
  simp only [hostOf, hlead, htail]

theorem credentialOf_append {username : String} (h : ':' ∉ username.toList) (hash : String) :
    credentialOf (username ++ ":" ++ hash) = { username := username, password := hash } := by
  have hsplit : splitFirst ':' (username ++ ":" ++ hash) = some (username, hash) :=
    splitFirst_append h hash
  simp only [credentialOf, hsplit]

end Graph

namespace Compiler

variable {c : Compiler} {r : Route} {hash : String → String}

/-- Where the hasher hashes each password and no hash is stored, each user has a new hash. -/
theorem hashCredentials_eq_ok {entries : List Credential}
    (h : ∀ e ∈ entries, c.hasher e.password = .ok (hash e.password)) :
    c.hashCredentials .empty entries =
      .ok (entries.map fun e => e.username ++ ":" ++ hash e.password) := by
  induction entries with
  | nil => rfl
  | cons e entries ih =>
    have hhead : c.hashCredential .empty e = .ok (e.username ++ ":" ++ hash e.password) := by
      simp [hashCredential, h e List.mem_cons_self]
    rw [hashCredentials, hhead, ih fun e he => h e (List.mem_cons_of_mem _ he)]
    rfl

theorem compile_eq_ok (id : RouteId)
    (h : ∀ e ∈ r.activeCredentials, c.hasher e.password = .ok (hash e.password)) :
    c.compile id r = .ok (c.graphOf id r
      (r.activeCredentials.map fun e => e.username ++ ":" ++ hash e.password)) :=
  recompile_eq_ok_iff.mpr ⟨_, hashCredentials_eq_ok h, rfl⟩

/-! ## Headers -/

theorem resolveValue_ne_empty (hhost : c.hostIp ≠ some "") {value : String} (h : value ≠ "") :
    c.resolveValue value ≠ "" := by
  refine replaceAll_ne_empty ?_ h
  cases hip : c.hostIp with
  | none => decide
  | some address =>
    intro hempty
    exact hhost (by rw [hip]; exact congrArg some hempty)

/-- The value of a header is that of the last active header of its name. -/
theorem get?_resolveHeaders (hhost : c.hostIp ≠ some "") (hvalid : r.Valid) (name : String) :
    (c.resolveHeaders r).get? name =
      (r.lastHeader? name).map fun e => c.resolveValue e.value := by
  have hkeep : (r.activeHeaders.map fun h => (h.name, c.resolveValue h.value)).filter
      (fun e => e.2 ≠ "") = r.activeHeaders.map fun h => (h.name, c.resolveValue h.value) := by
    rw [List.filter_eq_self]
    intro e he
    obtain ⟨h, hh, rfl⟩ := List.mem_map.mp he
    simpa using resolveValue_ne_empty hhost (hvalid.headerValue_ne_empty hh)
  rw [resolveHeaders, hkeep, Dict.get?_ofList, Route.lastHeader?, ← List.map_reverse,
    List.find?_map, Option.map_map]
  rfl

/-- The entries of a dictionary of headers, as headers. -/
theorem showsHeaders_entries (hhost : c.hostIp ≠ some "") (hvalid : r.Valid) :
    c.ShowsHeaders r ((c.resolveHeaders r).entries.map fun e => { name := e.1, value := e.2 }) := by
  constructor
  · exact List.pairwise_map.mpr (c.resolveHeaders r).ascending
  · rintro ⟨name, value⟩
    have hmem : (⟨name, value⟩ : HeaderEntry) ∈
        ((c.resolveHeaders r).entries.map fun e => { name := e.1, value := e.2 }) ↔
          (c.resolveHeaders r).get? name = some value := by
      rw [Dict.get?_eq_some_iff]
      simp
    rw [hmem, get?_resolveHeaders hhost hvalid, Option.map_eq_some_iff]
    simp only [eq_comm]

/-! ## What is shown -/

section Shown

variable (c) (id : RouteId) (r) (users : List String)

theorem headersOf_graphOf : (c.graphOf id r users).headersOf id =
    (c.resolveHeaders r).entries.map fun e => { name := e.1, value := e.2 } := by
  rw [Graph.headersOf, get?_headersMiddleware]
  by_cases h : (c.resolveHeaders r).isEmpty = true
  · rw [if_pos h, Dict.isEmpty_iff.mp h]
    rfl
  · rw [if_neg h]
    rfl

theorem credentialsOf_graphOf :
    (c.graphOf id r users).credentialsOf id = users.map Graph.credentialOf := by
  rw [Graph.credentialsOf, get?_basicAuthMiddleware]
  cases users <;> rfl

/-- The depth of a valid restriction is the one that is written, none being written for zero. -/
theorem effectiveDepth_depthOf {depth : Int64} (h₀ : 0 ≤ depth.toInt) (h₁ : depth.toInt ≤ 30) :
    (match depthOf depth with
      | some s => Int64.ofNat s.effectiveDepth.toNat
      | none => 0) = depth := by
  by_cases hpos : 0 < depth.toInt
  · have hlt : depth.toInt.toNat < UInt32.size := by simp only [UInt32.size]; omega
    have hsome : depthOf depth = some { depth := some (UInt32.ofNat depth.toInt.toNat) } := by
      have hbound : depth.toInt < (UInt32.size : Int) := by simp only [UInt32.size]; omega
      rw [depthOf, if_pos (by simp only [hpos, hbound, decide_true, Bool.and_self])]
    rw [hsome]
    apply Int64.toInt_inj.mp
    simp only [IpStrategy.effectiveDepth, Option.getD_some, UInt32.toNat_ofNat']
    rw [Nat.mod_eq_of_lt hlt, Int64.toInt_ofNat_of_lt (by omega)]
    omega
  · have hnone : depthOf depth = none := by simp [depthOf, hpos]
    rw [hnone]
    apply Int64.toInt_inj.mp
    have : depth.toInt = 0 := by omega
    rw [this]
    rfl

theorem restrictionOf_graphOf (hvalid : r.Valid) :
    (c.graphOf id r users).restrictionOf id = r.shownRestriction := by
  rw [Graph.restrictionOf, get?_ipMiddleware, Route.shownRestriction]
  cases hr : r.ipRestriction with
  | none => rfl
  | some i =>
    obtain ⟨⟨h₀, h₁⟩, -⟩ := hvalid.restriction i hr
    cases hips : i.activeIps with
    | nil => simp [hips]
    | cons ip ips =>
      simp only [Option.bind_some, hips, List.isEmpty_cons, Bool.false_eq_true, if_false,
        Middleware.ipWhiteList?, IpWhiteList.sourceList, Option.getD_some, Option.map_some]
      exact congrArg (fun d => some (IpRestriction.mk d (ip :: ips)))
        (effectiveDepth_depthOf h₀ h₁)

theorem plain_hasMiddleware_iff (name : String) :
    (plainRouter id r (c.headersMiddleware id r) (basicAuthMiddleware id users)
      (ipMiddleware id r)).hasMiddleware name = true ↔
        name ∈ plainNames r (c.headersMiddleware id r) (basicAuthMiddleware id users)
          (ipMiddleware id r) :=
  Router.hasMiddleware_iff (refs_plainRouter ..) name

theorem secure_hasMiddleware_iff (name : String) :
    (c.secureRouter id r (c.headersMiddleware id r) (basicAuthMiddleware id users)
      (ipMiddleware id r)).hasMiddleware name = true ↔
        name ∈ secureNames r (c.headersMiddleware id r) (basicAuthMiddleware id users)
          (ipMiddleware id r) :=
  Router.hasMiddleware_iff (refs_secureRouter ..) name

/-- A shared name is none of the keys of a route's own middlewares. -/
theorem wellKnown_notMem_own {name : String} (h : name ∈ SharedMiddlewares.wellKnown) :
    name ∉ (c.headersMiddleware id r).map (·.1) ∧
      name ∉ (basicAuthMiddleware id users).map (·.1) ∧ name ∉ (ipMiddleware id r).map (·.1) := by
  have hkind : ∀ kind ∈ RouteId.ownKinds, name ≠ id.middleware kind := fun kind hk =>
    (id.middleware_ne_shared hk h).symm
  refine ⟨fun hm => ?_, fun hm => ?_, fun hm => ?_⟩
  · exact hkind headersKind (by decide)
      (by simpa using (c.map_fst_headersMiddleware id r).subset hm)
  · exact hkind basicAuthKind (by decide)
      (by simpa using (map_fst_basicAuthMiddleware id users).subset hm)
  · exact hkind ipRestrictKind (by decide)
      (by simpa using (map_fst_ipMiddleware id r).subset hm)

/-- The shared middlewares that the router for unencrypted requests passes. -/
theorem wellKnown_mem_plainNames_iff {name : String} (h : name ∈ SharedMiddlewares.wellKnown) :
    name ∈ plainNames r (c.headersMiddleware id r) (basicAuthMiddleware id users)
      (ipMiddleware id r) ↔
        ((r.https && r.forceTls) = true ∧ name = SharedMiddlewares.redirect) ∨
          (r.forwardAuth = true ∧ name = SharedMiddlewares.forwardAuthName) := by
  obtain ⟨hh, ha, hi⟩ := c.wellKnown_notMem_own r id users h
  simp only [plainNames, List.mem_append, hh, hi, or_false]
  cases r.https <;> cases r.forceTls <;> cases r.forwardAuth <;> simp [ha]

/-- The shared middlewares that the router for encrypted requests passes. -/
theorem wellKnown_mem_secureNames_iff {name : String} (h : name ∈ SharedMiddlewares.wellKnown) :
    name ∈ secureNames r (c.headersMiddleware id r) (basicAuthMiddleware id users)
      (ipMiddleware id r) ↔
        (r.hsts = true ∧ name = SharedMiddlewares.hsts) ∨
          (r.forwardAuth = true ∧ name = SharedMiddlewares.forwardAuthName) := by
  obtain ⟨hh, ha, hi⟩ := c.wellKnown_notMem_own r id users h
  simp only [secureNames, List.mem_append, hh, ha, hi, or_false]
  cases r.hsts <;> cases r.forwardAuth <;> simp

theorem anyRouterHas_graphOf :
    (c.graphOf id r users).anyRouterHas SharedMiddlewares.forwardAuthName = r.forwardAuth := by
  rw [Bool.eq_iff_iff, Graph.anyRouterHas, List.any_eq_true]
  have hmem : SharedMiddlewares.forwardAuthName ∈ SharedMiddlewares.wellKnown := by decide
  have hredirect : SharedMiddlewares.forwardAuthName ≠ SharedMiddlewares.redirect := by decide
  have hhsts : SharedMiddlewares.forwardAuthName ≠ SharedMiddlewares.hsts := by decide
  constructor
  · rintro ⟨router, hrouter, hhas⟩
    rcases (c.mem_routers_iff id r users).mp hrouter with rfl | ⟨-, rfl⟩
    · rw [plain_hasMiddleware_iff, wellKnown_mem_plainNames_iff _ _ _ _ hmem] at hhas
      simpa [hredirect] using hhas
    · rw [secure_hasMiddleware_iff, wellKnown_mem_secureNames_iff _ _ _ _ hmem] at hhas
      simpa [hhsts] using hhas
  · intro h
    refine ⟨_, Dict.mem_values_iff.mpr ⟨_, c.get?_httpRouter id r users⟩, ?_⟩
    rw [plain_hasMiddleware_iff, wellKnown_mem_plainNames_iff _ _ _ _ hmem]
    exact .inr ⟨h, rfl⟩

theorem plain_hasMiddleware_redirect :
    (plainRouter id r (c.headersMiddleware id r) (basicAuthMiddleware id users)
      (ipMiddleware id r)).hasMiddleware SharedMiddlewares.redirect = (r.https && r.forceTls) := by
  have hne : SharedMiddlewares.redirect ≠ SharedMiddlewares.forwardAuthName := by decide
  rw [Bool.eq_iff_iff, plain_hasMiddleware_iff, wellKnown_mem_plainNames_iff _ _ _ _ (by decide)]
  simp [hne]

theorem secure_hasMiddleware_hsts :
    (c.secureRouter id r (c.headersMiddleware id r) (basicAuthMiddleware id users)
      (ipMiddleware id r)).hasMiddleware SharedMiddlewares.hsts = r.hsts := by
  have hne : SharedMiddlewares.hsts ≠ SharedMiddlewares.forwardAuthName := by decide
  rw [Bool.eq_iff_iff, secure_hasMiddleware_iff, wellKnown_mem_secureNames_iff _ _ _ _ (by decide)]
  simp [hne]

/-- What is shown of the graph of a valid route with some users. -/
theorem project_graphOf (hvalid : r.Valid) :
    (c.graphOf id r users).project id = .ok { r.normalForm id
      ((c.resolveHeaders r).entries.map fun e => { name := e.1, value := e.2 }) (fun _ => "") with
        basicAuth := users.map Graph.credentialOf } := by
  have hservice : ((plainRouter id r (c.headersMiddleware id r) (basicAuthMiddleware id users)
      (ipMiddleware id r)).service.map refName).getD id.text = id.text := refName_fileRef id.text
  have hrule : (plainRouter id r (c.headersMiddleware id r) (basicAuthMiddleware id users)
      (ipMiddleware id r)).rule = ruleOf r := rfl
  simp only [Graph.project, get?_httpRouter, Option.some_or, hservice, get?_services, if_pos,
    hrule, Graph.hostOf_ruleOf, anyRouterHas_graphOf, headersOf_graphOf, credentialsOf_graphOf,
    restrictionOf_graphOf _ _ _ _ hvalid, get?_secureRouter, Option.any_some,
    plain_hasMiddleware_redirect]
  cases hhttps : r.https with
  | false => simp [Route.normalForm, hhttps, serviceOf, Graph.firstServer?, LoadBalancer.serverList]
  | true =>
    simp [Route.normalForm, hhttps, serviceOf, Graph.firstServer?, LoadBalancer.serverList,
      secure_hasMiddleware_hsts]
    rfl

end Shown

/-- What an operator is shown of a valid route once it is compiled is its normal form. -/
theorem project_compile (c : Compiler) (id : RouteId) (r : Route) (hash : String → String)
    (hvalid : r.validate.isValid = true) (hhost : c.hostIp ≠ some "")
    (hhash : ∀ e ∈ r.activeCredentials, c.hasher e.password = .ok (hash e.password)) :
    ∃ g headers, c.compile id r = .ok g ∧ c.ShowsHeaders r headers ∧
      g.project id = .ok (r.normalForm id headers hash) := by
  have hvalid := Route.Valid.of_isValid hvalid
  refine ⟨_, _, compile_eq_ok id hhash, showsHeaders_entries hhost hvalid, ?_⟩
  rw [project_graphOf _ _ _ _ hvalid, List.map_map]
  refine congrArg Except.ok (congrArg (fun l => { r.normalForm id _ _ with basicAuth := l }) ?_)
  exact List.map_congr_left fun e he => Graph.credentialOf_append (hvalid.colon_notMem he) _

/-- A route with unused slots, one header twice and another that asks for the host's address. -/
def crowdedRoute : Route where
  name := "blog"
  domain := "blog.example.com"
  backend := { url := "http://10.0.0.5:8080", healthy := true }
  forwardAuth := true
  forceTls := true
  hsts := true
  headers := [{ name := "X-Env", value := "prod" }, {}, { name := "X-Ip", value := "at $ServerIP" },
    { name := "X-Env", value := "test" }]
  basicAuth := [{ username := "admin", password := "secret" }, {}]
  ipRestriction := some { depth := 2, ips := ["", "10.0.0.0/8"] }

theorem project_compile_crowdedRoute :
    crowdedRoute.validate.isValid = true ∧ ∃ g headers,
      Compiler.compile ⟨"le", Hasher.marking, none⟩ ⟨"blog_0a1b2c3d"⟩ crowdedRoute = .ok g ∧
      Compiler.ShowsHeaders ⟨"le", Hasher.marking, none⟩ crowdedRoute headers ∧
      g.project ⟨"blog_0a1b2c3d"⟩ =
        .ok (crowdedRoute.normalForm ⟨"blog_0a1b2c3d"⟩ headers fun p => "$static$" ++ p) := by
  have hvalid : crowdedRoute.validate.isValid = true := by decide +kernel
  exact ⟨hvalid, project_compile ⟨"le", Hasher.marking, none⟩ ⟨"blog_0a1b2c3d"⟩ crowdedRoute
    (fun p => "$static$" ++ p) hvalid (by decide) (fun _ _ => rfl)⟩

end Compiler

end RouteFleet
