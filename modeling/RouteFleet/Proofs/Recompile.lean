import RouteFleet.Proofs.Credentials
import RouteFleet.Proofs.Graph.Named
import RouteFleet.Proofs.Route.Shown
import RouteFleet.Proofs.Text.Replace

/-! # Compiling what is shown

What an operator is shown of a compiled route compiles to the same graph again, whatever the host's
address has become: there is nothing left in the headers to fill in
(`Compiler.resolveValue_resolveValue`), each password is the hash that is stored for its user and is kept
(`Compiler.keeps_graphOf`), and the rest of the route is as it was (`Compiler.graphOf_shown`). Under
another identity it compiles to the graph with its names moved over.

Main statement: `Compiler.recompile_project`.
-/

namespace RouteFleet

open Text

namespace Compiler

variable {c : Compiler} {r : Route}

/-! ## Headers -/

/-- Whether the host's own address, where it can be found out, has the shape of one. -/
def HasAddress (c : Compiler) : Prop :=
  ∀ address, c.hostIp = some address → Rule.isDottedQuad address.toList = true

/-- What is written for the host's address shares no character with what stands for it. -/
theorem HasAddress.disjoint (h : c.HasAddress) :
    c.hostIp.getD unknownAddress ≠ "" ∧
      ∀ ch ∈ (c.hostIp.getD unknownAddress).toList, ch ∉ addressToken.toList := by
  cases hip : c.hostIp with
  | none =>
    have hforeign : unknownAddress.toList.all (fun ch => !addressToken.toList.contains ch) = true := by
      decide
    refine ⟨by decide, fun ch hch hmem => ?_⟩
    have hnot := List.all_eq_true.mp hforeign ch hch
    rw [List.contains_iff_mem.mpr hmem] at hnot
    exact Bool.false_ne_true hnot
  | some address =>
    obtain ⟨hlength, hchars⟩ := Rule.isDottedQuad_spec (h address hip)
    refine ⟨?_, fun ch hch hmem => ?_⟩
    · rintro rfl
      exact absurd hlength (by decide)
    · have hforeign : addressToken.toList.all (fun d => d != '.' && !isDigit d) = true := by decide
      have hneither := List.all_eq_true.mp hforeign ch hmem
      rw [Bool.and_eq_true, bne_iff_ne, Bool.not_eq_true'] at hneither
      rcases hchars ch hch with heq | hdigit
      · exact hneither.1 heq
      · exact Bool.false_ne_true (hneither.2.symm.trans hdigit)

/-- Once the host's address is filled in, there is nothing left to fill in. -/
theorem resolveValue_resolveValue (h : c.HasAddress) (c' : Compiler) (value : String) :
    c'.resolveValue (c.resolveValue value) = c.resolveValue value :=
  replaceAll_replaceAll (by decide) h.disjoint.1 h.disjoint.2 _ value

theorem of_mem_resolveHeaders {e : String × String} (h : e ∈ (c.resolveHeaders r).entries) :
    e.2 ≠ "" ∧ ∃ value, e.2 = c.resolveValue value := by
  have hmem := Dict.mem_of_get?_ofList (Dict.get?_eq_some_iff.mpr h)
  obtain ⟨hmem, hne⟩ := List.mem_filter.mp hmem
  obtain ⟨header, -, hheader⟩ := List.mem_map.mp hmem
  exact ⟨of_decide_eq_true hne, header.value, (Prod.mk.inj hheader).2.symm⟩

/-- Headers that are filled in are the same after they are filled in again. -/
theorem resolveHeaders_shown (h : c.HasAddress) (c' : Compiler) {r' : Route}
    (hheaders : r'.headers =
      (c.resolveHeaders r).entries.map fun e => { name := e.1, value := e.2 }) :
    c'.resolveHeaders r' = c.resolveHeaders r := by
  have hactive : r'.activeHeaders = r'.headers := by
    refine List.filter_eq_self.mpr fun header hheader => ?_
    rw [hheaders] at hheader
    obtain ⟨e, he, rfl⟩ := List.mem_map.mp hheader
    simp [HeaderEntry.isEmpty, (of_mem_resolveHeaders he).1]
  have hvalues : (r'.activeHeaders.map fun header => (header.name, c'.resolveValue header.value)) =
      (c.resolveHeaders r).entries := by
    rw [hactive, hheaders, List.map_map]
    refine (List.map_congr_left fun e he => ?_).trans (List.map_id _)
    obtain ⟨-, value, hvalue⟩ := of_mem_resolveHeaders he
    show (e.1, c'.resolveValue e.2) = e
    rw [hvalue, resolveValue_resolveValue h, ← hvalue]
  have hkept : (c.resolveHeaders r).entries.filter (fun e => decide (e.2 ≠ "")) =
      (c.resolveHeaders r).entries :=
    List.filter_eq_self.mpr fun e he => decide_eq_true (of_mem_resolveHeaders he).1
  rw [resolveHeaders, hvalues, hkept, Dict.ofList_entries]

/-! ## The rest of the route -/

/-- A route as it is shown, with the headers that were filled in and some credentials. -/
def shownAs (c : Compiler) (r : Route) (id : RouteId) (credentials : List Credential) : Route :=
  { r.normalForm id ((c.resolveHeaders r).entries.map fun e => { name := e.1, value := e.2 })
      (fun _ => "") with basicAuth := credentials }

section Shown

variable (id id' : RouteId) (credentials : List Credential)

theorem ipMiddleware_shown : ipMiddleware id (c.shownAs r id' credentials) = ipMiddleware id r := by
  have hshown : (c.shownAs r id' credentials).ipRestriction = r.shownRestriction := rfl
  rw [ipMiddleware, ipMiddleware, hshown, Route.shownRestriction]
  cases r.ipRestriction with
  | none => rfl
  | some i =>
    by_cases hnone : i.activeIps.isEmpty = true
    · rw [Option.bind_some, if_pos hnone]
      simp only [if_pos hnone]
    · have hactive : IpRestriction.activeIps { depth := i.depth, ips := i.activeIps } = i.activeIps :=
        List.filter_filter.trans (by simp [IpRestriction.activeIps])
      rw [Option.bind_some, if_neg hnone]
      simp only [hactive]

theorem plainRouter_shown (headers auth ips : List (String × Middleware)) :
    plainRouter id (c.shownAs r id' credentials) headers auth ips = plainRouter id r headers auth ips := by
  have hforce : (r.https && (r.https && r.forceTls)) = (r.https && r.forceTls) := by
    cases r.https <;> rfl
  simp only [plainRouter, shownAs, Route.normalForm, ruleOf, hforce]
  rfl

theorem secureRouter_shown (c' : Compiler) (hresolver : c'.certResolver = c.certResolver)
    (hhttps : r.https = true) (headers auth ips : List (String × Middleware)) :
    c'.secureRouter id (c.shownAs r id' credentials) headers auth ips =
      c.secureRouter id r headers auth ips := by
  simp only [secureRouter, shownAs, Route.normalForm, ruleOf, tls, hresolver, hhttps, Bool.true_and]

/-- What is shown compiles to the same graph with the same users. -/
theorem graphOf_shown (h : c.HasAddress) (c' : Compiler) (hresolver : c'.certResolver = c.certResolver)
    (users : List String) :
    c'.graphOf id (c.shownAs r id' credentials) users = c.graphOf id r users := by
  have hheaders : c'.headersMiddleware id (c.shownAs r id' credentials) = c.headersMiddleware id r := by
    rw [headersMiddleware, headersMiddleware, resolveHeaders_shown h c' rfl]
  have hhttps : (c.shownAs r id' credentials).https = r.https := rfl
  simp only [graphOf, hheaders, ipMiddleware_shown, plainRouter_shown, hhttps]
  have hservice : serviceOf (c.shownAs r id' credentials) = serviceOf r := rfl
  rw [hservice]
  cases hsecure : r.https with
  | false => rfl
  | true => rw [secureRouter_shown id id' credentials c' hresolver hsecure]

end Shown

/-! ## Credentials -/

theorem exists_entry_of_hashCredential {stored : Dict String} {e : Credential} {user : String}
    (h : c.hashCredential stored e = .ok user) :
    ∃ hash, user = Credential.entry { username := e.username, password := hash } := by
  rw [hashCredential] at h
  split at h
  · exact ⟨e.password, (Except.ok.inj h).symm⟩
  · split at h
    · rename_i hash _
      exact ⟨hash, (Except.ok.inj h).symm⟩
    · cases h

/-- Users who were hashed are credentials with the same names. -/
theorem exists_credentials_of_hashCredentials {stored : Dict String} {entries : List Credential}
    {users : List String} (h : c.hashCredentials stored entries = .ok users) :
    ∃ hashed : List Credential, users = hashed.map Credential.entry ∧
      hashed.map (·.username) = entries.map (·.username) := by
  have hall := hashCredentials_eq_ok_iff.mp h
  induction hall with
  | nil => exact ⟨[], rfl, rfl⟩
  | cons hfirst hrest ih =>
    obtain ⟨hash, rfl⟩ := exists_entry_of_hashCredential hfirst
    obtain ⟨hashed, rfl, hnames⟩ := ih (hashCredentials_eq_ok_iff.mpr hrest)
    exact ⟨_ :: hashed, rfl, congrArg (List.cons _) hnames⟩

/-- The stored entries of a compiled graph are its users. -/
theorem mem_userEntries_graphOf {id : RouteId} {users : List String} {entry : String} :
    entry ∈ (c.graphOf id r users).userEntries ↔ entry ∈ users := by
  rw [Graph.mem_userEntries_iff]
  constructor
  · rintro ⟨key, auth, hauth, -, hentry⟩
    rw [get?_middlewares, mem_ownMiddlewares_iff, mem_headersMiddleware_iff,
      mem_basicAuthMiddleware_iff, mem_ipMiddleware_iff] at hauth
    rcases hauth with ⟨-, -, hkind⟩ | ⟨-, -, hkind⟩ | ⟨_, -, -, -, hkind⟩
    · exact nomatch hkind
    · obtain rfl := Middleware.basicAuth.inj hkind
      exact hentry
    · exact nomatch hkind
  · intro hentry
    refine ⟨id.middleware basicAuthKind, { users := some users }, ?_, ?_, hentry⟩
    · rw [get?_basicAuthMiddleware, if_neg (by simpa using List.ne_nil_of_mem hentry)]
    · simp [endsWith, RouteId.middleware, List.isSuffixOf_iff_suffix]

/-- A compiled graph keeps each of its users, where these bear different names. -/
theorem keeps_graphOf {id : RouteId} {credentials : List Credential}
    (hdistinct : (credentials.map (·.username)).Nodup)
    (hcolon : ∀ e ∈ credentials, ':' ∉ e.username.toList) {e : Credential} (he : e ∈ credentials) :
    (c.graphOf id r (credentials.map Credential.entry)).Keeps e := by
  refine Graph.keeps_of_mem_userEntries (mem_userEntries_graphOf.mpr (List.mem_map_of_mem he)) ?_
  intro entry hentry hbegins
  obtain ⟨e', he', rfl⟩ := List.mem_map.mp (mem_userEntries_graphOf.mp hentry)
  obtain ⟨hash, hsplit⟩ := (beginsWith_append_iff (hcolon e he)).mp hbegins
  have hsplit' : splitFirst ':' e'.entry = some (e'.username, e'.password) :=
    splitFirst_append (hcolon e' he') e'.password
  have hname : e'.username = e.username := by
    rw [hsplit', Option.some.injEq, Prod.mk.injEq] at hsplit
    exact hsplit.1
  rw [List.inj_on_of_nodup_map hdistinct he' he hname]

/-- Credentials that are kept are not hashed. -/
theorem hashCredentials_of_keeps {g : Graph} {credentials : List Credential}
    (hcolon : ∀ e ∈ credentials, ':' ∉ e.username.toList) (h : ∀ e ∈ credentials, g.Keeps e) :
    c.hashCredentials (storedHashes g) credentials = .ok (credentials.map Credential.entry) := by
  rw [hashCredentials_eq_ok_iff, List.forall₂_map_right_iff, List.forall₂_same]
  exact fun e he => hashCredential_of_keeps (hcolon e he) (h e he)

/-! ## Compiling again -/

/-- What is shown of a valid route that was compiled under an identity with a tag, its users bearing
different names, compiles again whatever the hasher does, the host's address has become and the resolver
is. With the same resolver, the graph is the one that is stored with its names moved over to the new
identity, and that graph itself if the identity is the old one. -/
theorem recompile_project (c : Compiler) (id : RouteId) (r : Route) {g : Graph}
    (hvalid : r.validate.isValid = true) (hdistinct : (r.activeCredentials.map (·.username)).Nodup)
    (htag : id.isLegacy = false) (haddress : c.HasAddress) (hmade : c.compile id r = .ok g) :
    ∃ shown, g.project id = .ok shown ∧ ∀ certResolver hostIp id', ∃ again,
      (∀ hasher, Compiler.recompile ⟨certResolver, hasher, hostIp⟩ id' shown (some g) = .ok again) ∧
      (certResolver = c.certResolver → again = g.rename id id' ∧ (id' = id → again = g)) := by
  have hvalid := Route.Valid.of_isValid hvalid
  obtain ⟨users, husers, rfl⟩ := recompile_eq_ok_iff.mp hmade
  obtain ⟨credentials, rfl, hnames⟩ := exists_credentials_of_hashCredentials husers
  rw [← hnames] at hdistinct
  have huser : ∀ e ∈ credentials, ':' ∉ e.username.toList ∧ e.username ≠ "" := by
    intro e he
    obtain ⟨e', he', heq⟩ := List.mem_map.mp (hnames ▸ List.mem_map_of_mem he)
    exact heq ▸ ⟨hvalid.colon_notMem he', hvalid.username_ne_empty he'⟩
  have hcolon := fun e he => (huser e he).1
  have hback : (credentials.map Credential.entry).map Graph.credentialOf = credentials := by
    rw [List.map_map]
    exact (List.map_congr_left fun e he => Graph.credentialOf_append (hcolon e he) e.password).trans
      (List.map_id _)
  have hactive : (c.shownAs r id credentials).activeCredentials = credentials :=
    List.filter_eq_self.mpr fun e he => by simp [Credential.isEmpty, (huser e he).2]
  refine ⟨c.shownAs r id credentials, ?_, fun certResolver hostIp id' => ?_⟩
  · rw [project_graphOf _ _ _ _ hvalid, hback, shownAs]
  · refine ⟨graphOf ⟨certResolver, c.hasher, hostIp⟩ id' (c.shownAs r id credentials)
      (credentials.map Credential.entry), fun hasher => ?_, fun hresolver => ?_⟩
    · refine recompile_eq_ok_iff.mpr ⟨_, ?_, rfl⟩
      rw [hactive]
      exact hashCredentials_of_keeps hcolon fun e he => keeps_graphOf hdistinct hcolon he
    · rw [graphOf_shown id' id credentials haddress _ hresolver, rename_graphOf _ _ _ htag]
      exact ⟨rfl, fun h => h ▸ rfl⟩

/-- A route with two users, a header that asks for the host's address and an address list. -/
def guardedRoute : Route where
  name := "blog"
  domain := "blog.example.com"
  backend := { url := "http://10.0.0.5:8080" }
  forwardAuth := true
  https := true
  hsts := true
  headers := [{ name := "X-Ip", value := "at $ServerIP" }, {}]
  basicAuth := [{ username := "admin", password := "secret" }, {},
    { username := "reader", password := "other" }]
  ipRestriction := some { depth := 2, ips := ["", "10.0.0.0/8"] }

theorem recompile_project_guardedRoute :
    guardedRoute.validate.isValid = true ∧
    (guardedRoute.activeCredentials.map (·.username)).Nodup ∧
    RouteId.isLegacy ⟨"blog_0a1b2c3d"⟩ = false ∧
    Compiler.HasAddress ⟨"le", Hasher.marking, some "10.1.2.3"⟩ ∧
    ∃ g shown, Compiler.compile ⟨"le", Hasher.marking, some "10.1.2.3"⟩ ⟨"blog_0a1b2c3d"⟩ guardedRoute =
        .ok g ∧ g.project ⟨"blog_0a1b2c3d"⟩ = .ok shown ∧
      Compiler.recompile ⟨"le", Hasher.refusing, none⟩ ⟨"blog_0a1b2c3d"⟩ shown (some g) = .ok g ∧
      Compiler.recompile ⟨"le", Hasher.refusing, none⟩ ⟨"diary_00000000"⟩ shown (some g) =
        .ok (g.rename ⟨"blog_0a1b2c3d"⟩ ⟨"diary_00000000"⟩) := by
  have hvalid : guardedRoute.validate.isValid = true := by decide +kernel
  have hdistinct : (guardedRoute.activeCredentials.map (·.username)).Nodup := by decide +kernel
  have htag : RouteId.isLegacy ⟨"blog_0a1b2c3d"⟩ = false := by decide +kernel
  have haddress : Compiler.HasAddress ⟨"le", Hasher.marking, some "10.1.2.3"⟩ := by
    rintro _ ⟨⟩
    decide +kernel
  have hmade := @compile_eq_ok ⟨"le", Hasher.marking, some "10.1.2.3"⟩ guardedRoute
    (fun p => "$static$" ++ p) ⟨"blog_0a1b2c3d"⟩ fun _ _ => rfl
  obtain ⟨shown, hshown, hagain⟩ := recompile_project ⟨"le", Hasher.marking, some "10.1.2.3"⟩
    ⟨"blog_0a1b2c3d"⟩ guardedRoute hvalid hdistinct htag haddress hmade
  obtain ⟨g, hsame, hresolver⟩ := hagain "le" none ⟨"blog_0a1b2c3d"⟩
  obtain ⟨g', hmoved, hresolver'⟩ := hagain "le" none ⟨"diary_00000000"⟩
  refine ⟨hvalid, hdistinct, htag, haddress, _, shown, hmade, hshown, ?_, ?_⟩
  · rw [hsame, (hresolver rfl).2 rfl]
  · rw [hmoved, (hresolver' rfl).1]

end Compiler

end RouteFleet
