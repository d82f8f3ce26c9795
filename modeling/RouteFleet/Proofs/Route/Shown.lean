import RouteFleet.Proofs.Projection
import RouteFleet.Validation.Check

/-! # Routes that are shown again

What an operator is shown of a valid route that was compiled keeps all rules again but one: the value of
a header may have become too long, since the host's own address is filled in after its length was
checked (`Compiler.valid_shown_iff`). Where the address is not longer than what stands for it, this does
not happen (`Compiler.length_resolveValue_le`).
-/

namespace RouteFleet

open Text

namespace Rule

/-- What follows of the shape of an address. -/
theorem isDottedQuad_spec {cs : List Char} (h : isDottedQuad cs = true) :
    3 ≤ cs.length ∧ ∀ c ∈ cs, c = '.' ∨ isDigit c = true := by
  rw [isDottedQuad, Bool.and_eq_true, beq_iff_eq, List.all_eq_true] at h
  constructor
  · have hpieces := length_pieces_le '.' cs
    omega
  · intro c hc
    rcases @exists_mem_pieces '.' _ _ hc with hdot | ⟨p, hp, hmem⟩
    · exact .inl hdot
    · have hoctet := h.2 p hp
      rw [isOctet, Bool.and_eq_true, List.all_eq_true] at hoctet
      exact .inr (hoctet.2 c hmem)

end Rule

/-- The last active header of a name is an active header of that name. -/
theorem Route.lastHeader?_spec {route : Route} {name : String} {e : HeaderEntry}
    (h : route.lastHeader? name = some e) : e ∈ route.activeHeaders ∧ e.name = name :=
  ⟨List.mem_reverse.mp (List.mem_of_find?_eq_some h), by simpa using List.find?_some h⟩

namespace Compiler

variable {c : Compiler} {route : Route}

/-- Whether what a compiler fills in has the shape of what it stands for: each hash could be a password,
and the host's address is an address. -/
structure IsSane (c : Compiler) : Prop where
  hash : ∀ password hash, c.hasher password = .ok hash → Rule.isPassword hash = true
  address : ∀ address, c.hostIp = some address → Rule.isDottedQuad address.toList = true

/-! ## Headers -/

/-- What is written for the host's address. -/
theorem IsSane.written (h : c.IsSane) : 3 ≤ (c.hostIp.getD unknownAddress).toList.length ∧
    '\n' ∉ (c.hostIp.getD unknownAddress).toList := by
  cases hip : c.hostIp with
  | none => decide
  | some address =>
    obtain ⟨hlength, hchars⟩ := Rule.isDottedQuad_spec (h.address address hip)
    refine ⟨hlength, fun hmem => ?_⟩
    rcases hchars _ hmem with hdot | hdigit
    · exact absurd hdot (by decide)
    · exact absurd hdigit (by decide)

theorem IsSane.hostIp_ne_empty (h : c.IsSane) : c.hostIp ≠ some "" := by
  intro hempty
  have hlength := h.written.1
  rw [hempty] at hlength
  exact absurd hlength (by decide)

/-- Once the host's address is filled in, the value of a header keeps its rule unless it is too long. -/
theorem isHeaderValue_resolveValue (h : c.IsSane) {value : String} (hvalue : Rule.isHeaderValue value = true) :
    Rule.isHeaderValue (c.resolveValue value) = true ↔ (c.resolveValue value).toList.length ≤ 128 := by
  rw [Rule.isHeaderValue, Rule.within, Bool.and_eq_true, Bool.and_eq_true, decide_eq_true_eq,
    decide_eq_true_eq, List.all_eq_true] at hvalue
  obtain ⟨⟨hlong, -⟩, hline⟩ := hvalue
  obtain ⟨hwritten, hbreak⟩ := h.written
  have hshort : 3 ≤ (c.resolveValue value).toList.length := by
    rw [resolveValue, replaceAll, String.toList_ofList]
    exact le_length_substitute hwritten hlong
  have honeLine : ∀ d ∈ (c.resolveValue value).toList, (d != '\n') = true := by
    intro d hd
    rw [resolveValue, replaceAll, String.toList_ofList] at hd
    rcases mem_of_mem_substitute hd with hnew | hold
    · rw [bne_iff_ne]
      rintro rfl
      exact hbreak hnew
    · exact hline d hold
  rw [Rule.isHeaderValue, Rule.within, Bool.and_eq_true, Bool.and_eq_true, decide_eq_true_eq,
    decide_eq_true_eq, List.all_eq_true]
  exact ⟨fun hboth => hboth.1.2, fun hle => ⟨⟨hshort, hle⟩, honeLine⟩⟩

/-- Where the address is not longer than what stands for it, no value gets longer. -/
theorem length_resolveValue_le (h : ∀ address, c.hostIp = some address →
    address.toList.length ≤ addressToken.toList.length) (value : String) :
    (c.resolveValue value).toList.length ≤ value.toList.length := by
  have hnew : (c.hostIp.getD unknownAddress).toList.length ≤ addressToken.toList.length := by
    cases hip : c.hostIp with
    | none => decide
    | some address => exact h address hip
  rw [resolveValue, replaceAll, String.toList_ofList]
  exact length_substitute_le hnew (Nat.zero_le _)

/-! ## Credentials -/

/-- Each user who is hashed is one of the credentials, with the password that was there or its hash. -/
theorem exists_of_mem_hashCredentials {stored : Dict String} {entries : List Credential}
    {users : List String} (h : c.hashCredentials stored entries = .ok users) : ∀ user ∈ users,
      ∃ e ∈ entries, ∃ secret, user = e.username ++ ":" ++ secret ∧
        (secret = e.password ∨ c.hasher e.password = .ok secret) := by
  induction entries generalizing users with
  | nil =>
    obtain rfl := Except.ok.inj h
    exact List.forall_mem_nil _
  | cons e entries ih =>
    rw [hashCredentials] at h
    cases hfirst : c.hashCredential stored e with
    | error cause =>
      rw [hfirst] at h
      cases h
    | ok user =>
      cases hrest : c.hashCredentials stored entries with
      | error cause =>
        rw [hfirst, hrest] at h
        cases h
      | ok rest =>
        rw [hfirst, hrest] at h
        obtain rfl := Except.ok.inj h
        refine List.forall_mem_cons.mpr ⟨⟨e, List.mem_cons_self, ?_⟩, fun user' hmem => ?_⟩
        · rw [hashCredential] at hfirst
          split at hfirst
          · exact ⟨_, (Except.ok.inj hfirst).symm, .inl rfl⟩
          · split at hfirst
            · rename_i hash hhash
              exact ⟨_, (Except.ok.inj hfirst).symm, .inr hhash⟩
            · cases hfirst
        · obtain ⟨e', he', hmade⟩ := ih hrest user' hmem
          exact ⟨e', List.mem_cons_of_mem _ he', hmade⟩

/-- A credential that is shown keeps its rules. -/
theorem valid_credentialOf (h : c.IsSane) (hvalid : route.Valid) {stored : Dict String}
    {users : List String} (husers : c.hashCredentials stored route.activeCredentials = .ok users)
    {user : String} (hmem : user ∈ users) :
    Rule.isUsername (Graph.credentialOf user).username = true ∧
      Rule.isPassword (Graph.credentialOf user).password = true := by
  obtain ⟨e, he, secret, rfl, hsecret⟩ := exists_of_mem_hashCredentials husers user hmem
  rw [Graph.credentialOf_append (hvalid.colon_notMem he)]
  simp only [Route.activeCredentials, List.mem_filter, Bool.not_eq_true'] at he
  obtain ⟨husername, hpassword⟩ := hvalid.credential e he.1 he.2
  refine ⟨husername, ?_⟩
  rcases hsecret with rfl | hhash
  · exact hpassword
  · exact h.hash _ _ hhash

/-! ## Routes -/

/-- The headers that are shown keep their rules if and only if none of their values is too long. -/
theorem valid_headers_shown_iff (h : c.IsSane) (hvalid : route.Valid) {headers : List HeaderEntry}
    (hheaders : c.ShowsHeaders route headers) :
    (∀ entry ∈ headers, entry.isEmpty = false →
      Rule.isHeaderName entry.name = true ∧ Rule.isHeaderValue entry.value = true) ↔
    ∀ name e, route.lastHeader? name = some e → (c.resolveValue e.value).toList.length ≤ 128 := by
  constructor
  · intro hshown name e he
    have hmem := (hheaders.2 { name := name, value := c.resolveValue e.value }).mpr ⟨e, he, rfl⟩
    obtain ⟨hactive, rfl⟩ := Route.lastHeader?_spec he
    have hused : HeaderEntry.isEmpty { name := e.name, value := c.resolveValue e.value } = false := by
      simp [HeaderEntry.isEmpty, hvalid.headerName_ne_empty hactive]
    exact (isHeaderValue_resolveValue h (hvalid.activeHeader hactive).2).mp (hshown _ hmem hused).2
  · intro hlong entry hentry _
    obtain ⟨e, he, hvalue⟩ := (hheaders.2 entry).mp hentry
    obtain ⟨hactive, hsame⟩ := Route.lastHeader?_spec he
    obtain ⟨hname, hkeeps⟩ := hvalid.activeHeader hactive
    rw [hvalue, ← hsame]
    exact ⟨hname, (isHeaderValue_resolveValue h hkeeps).mpr (hlong _ e he)⟩

/-- The address restriction that is shown keeps its rules: it is that of the route, with some entries left
out. -/
theorem valid_shownRestriction (hvalid : route.Valid) {i : IpRestriction}
    (hi : route.shownRestriction = some i) : (0 ≤ i.depth.toInt ∧ i.depth.toInt ≤ 30) ∧
      ∀ ip ∈ i.ips, ip ≠ "" → Rule.isIpEntry ip = true := by
  obtain ⟨restriction, hrestriction, hactive⟩ := Option.bind_eq_some_iff.mp hi
  split at hactive
  · cases hactive
  · obtain rfl := Option.some.inj hactive
    obtain ⟨hdepth, hips⟩ := hvalid.restriction restriction hrestriction
    exact ⟨hdepth, fun ip hip => hips ip (List.mem_filter.mp hip).1⟩

/-- What is shown of a valid route keeps all rules if and only if no value of a header is too long. -/
theorem valid_shown_iff (h : c.IsSane) (hvalid : route.Valid) {id : RouteId} (hname : id.name = route.name)
    {stored : Dict String} {users : List String}
    (husers : c.hashCredentials stored route.activeCredentials = .ok users)
    {headers : List HeaderEntry} (hheaders : c.ShowsHeaders route headers) (hash : String → String) :
    Route.Valid { route.normalForm id headers hash with basicAuth := users.map Graph.credentialOf } ↔
      ∀ name e, route.lastHeader? name = some e → (c.resolveValue e.value).toList.length ≤ 128 := by
  rw [← valid_headers_shown_iff h hvalid hheaders]
  constructor
  · intro hshown
    exact hshown.header
  · intro hkept
    refine ⟨?_, hvalid.domain, hvalid.backend, fun entry hentry _ => ?_,
      fun i => valid_shownRestriction hvalid, hkept⟩
    · show Rule.isName id.name = true
      rw [hname]
      exact hvalid.name
    · obtain ⟨user, huser, rfl⟩ := List.mem_map.mp hentry
      exact valid_credentialOf h hvalid husers huser

end Compiler

end RouteFleet
