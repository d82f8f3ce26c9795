import RouteFleet.Proofs.Graph.Sound

/-! # Reading what was written

A sound router or service is read back from its node (`Router.ofNode?_toValue`,
`Service.ofNode?_toValue`), and the body of a middleware of a managed kind from its value. A
middleware that is kept as it is is read back if and only if its tags are kept
(`Middleware.ofNode?_toValue_iff`), and so is a graph (`Graph.ofNode?_toValue_iff`).
-/

namespace RouteFleet

open Yaml Value

variable {d : Nat}

theorem nodeFields?_record (l : List (String × Option Value)) (e : Extra) :
    nodeFields? ((record l e).toNode none) =
      some ((presentFields l ++ e.entries).map fun f => (f.1, f.2.toNode none)) :=
  nodeFields?_mapping _

theorem valueFields?_record (l : List (String × Option Value)) (e : Extra) :
    valueFields? (record l e) = some (presentFields l ++ e.entries) := valueFields?_mapping _

/-- A managed field of a record is found in its value. -/
theorem uniqueField?_fields {l : List (String × Option Value)} {known : List String} {e : Extra}
    (he : e.Sound known d) (hl : l.map (·.1) = known) (hknown : known.Nodup) {key : String}
    {o : Option Value} (h : (key, o) ∈ l) :
    uniqueField? (presentFields l ++ e.entries) key = some o := by
  have hfield := uniqueField?_record he hl hknown id h
  rw [Option.map_id, id] at hfield
  rw [← hfield]
  exact congrArg (uniqueField? · key) (List.map_id _).symm

/-! ## Routers and services -/

theorem RouterTls.ofNode?_toValue {t : RouterTls} (h : t.Sound d) :
    ofNode? (t.toValue.toNode none) = some t := by
  have hfield := @uniqueField?_record t.fields _ d t.extra h rfl (by decide) _ (toNode none)
  have hresolver := @hfield "certResolver" _ (List.mem_of_getElem? (i := 0) rfl)
  have hread : nodeField? nodeText? ((t.certResolver.map .string).map (toNode none)) =
      some t.certResolver := nodeField?_toNode .string fun s _ => rfl
  have hextra := nodeExtra?_record h (l := t.fields) rfl
  rw [toValue_eq, ofNode?, nodeFields?_record]
  simp only [Option.bind_eq_bind, Option.bind_some, hresolver, hread, hextra, Option.pure_def]

theorem Router.ofNode?_toValue {r : Router} (h : r.Sound d) :
    ofNode? (r.toValue.toNode none) = some r := by
  have hfield := @uniqueField?_record r.fields _ (d + 1) r.extra h.extra rfl (by decide) _ (toNode none)
  have hentry := @hfield "entryPoints" _ (List.mem_of_getElem? (i := 0) rfl)
  have hrule := @hfield "rule" _ (List.mem_of_getElem? (i := 1) rfl)
  have hservice := @hfield "service" _ (List.mem_of_getElem? (i := 2) rfl)
  have htls := @hfield "tls" _ (List.mem_of_getElem? (i := 3) rfl)
  have hmiddlewares := @hfield "middlewares" _ (List.mem_of_getElem? (i := 4) rfl)
  have hlist : ∀ o : Option (List String),
      nodeField? nodeTexts? ((o.map textList).map (toNode none)) = some o := fun o =>
    nodeField?_toNode (fun l => .sequence _) fun l _ => nodeTexts?_textList l
  have hreadRule : required nodeText? ((some (Value.string r.rule)).map (toNode none)) =
      some r.rule := rfl
  have hreadService : nodeField? nodeText? ((r.service.map .string).map (toNode none)) =
      some r.service := nodeField?_toNode .string fun s _ => rfl
  have hreadTls : nodeField? RouterTls.ofNode? ((r.tls.map RouterTls.toValue).map (toNode none)) =
      some r.tls :=
    nodeField?_toNode (fun t => .mapping _) fun t ht => RouterTls.ofNode?_toValue (h.tls t ht)
  have hextra := nodeExtra?_record h.extra (l := r.fields) rfl
  rw [toValue_eq, ofNode?, nodeFields?_record]
  simp only [Option.bind_eq_bind, Option.bind_some, hentry, hrule, hservice, htls, hmiddlewares,
    hlist, hreadRule, hreadService, hreadTls, hextra, Option.pure_def]

theorem Server.ofNode?_toValue {s : Server} (h : s.Sound d) :
    ofNode? (s.toValue.toNode none) = some s := by
  have hfield := @uniqueField?_record s.fields _ d s.extra h rfl (by decide) _ (toNode none)
  have hurl := @hfield "url" _ (List.mem_of_getElem? (i := 0) rfl)
  have hread : required nodeText? ((some (Value.string s.url)).map (toNode none)) = some s.url := rfl
  have hextra := nodeExtra?_record h (l := s.fields) rfl
  rw [toValue_eq, ofNode?, nodeFields?_record]
  simp only [Option.bind_eq_bind, Option.bind_some, hurl, hread, hextra, Option.pure_def]

theorem LoadBalancer.ofNode?_toValue {b : LoadBalancer} (h : b.Sound d) :
    ofNode? (b.toValue.toNode none) = some b := by
  have hfield := @uniqueField?_record b.fields _ (d + 2) b.extra h.extra rfl (by decide) _ (toNode none)
  have hservers := @hfield "servers" _ (List.mem_of_getElem? (i := 0) rfl)
  have hread : nodeField? (fun n => (nodeItems? n).bind (·.mapM Server.ofNode?))
      ((b.servers.map serversValue).map (toNode none)) = some b.servers := by
    refine nodeField?_toNode (fun l => .sequence _) fun l hl => ?_
    rw [serversValue, nodeItems?_sequence, Option.bind_some]
    exact mapM_map_eq_some fun s hs => Server.ofNode?_toValue (h.servers l hl s hs)
  have hextra := nodeExtra?_record h.extra (l := b.fields) rfl
  rw [toValue_eq, ofNode?, nodeFields?_record]
  simp only [Option.bind_eq_bind, Option.bind_some, hservers, hread, hextra, Option.pure_def]

theorem Service.ofNode?_toValue {s : Service} (h : s.Sound d) :
    ofNode? (s.toValue.toNode none) = some s := by
  have hfield := @uniqueField?_record s.fields _ (d + 3) s.extra h.extra rfl (by decide) _ (toNode none)
  have hbalancer := @hfield "loadBalancer" _ (List.mem_of_getElem? (i := 0) rfl)
  have hread : nodeField? LoadBalancer.ofNode?
      ((s.loadBalancer.map LoadBalancer.toValue).map (toNode none)) = some s.loadBalancer :=
    nodeField?_toNode (fun b => .mapping _) fun b hb =>
      LoadBalancer.ofNode?_toValue (h.loadBalancer b hb)
  have hextra := nodeExtra?_record h.extra (l := s.fields) rfl
  rw [toValue_eq, ofNode?, nodeFields?_record]
  simp only [Option.bind_eq_bind, Option.bind_some, hbalancer, hread, hextra, Option.pure_def]

/-! ## Middlewares -/

theorem valueField?_natValue {α : Type} {toNat : α → Nat} {bound : Nat} (h : ∀ x, toNat x < bound)
    (o : Option α) : valueField? (valueNat? bound) (o.map fun x => natValue (toNat x)) =
      some (o.map toNat) := by
  cases o with
  | none => rfl
  | some x =>
    show (valueNat? bound (natValue (toNat x))).map some = _
    rw [valueNat?_natValue (h x)]
    rfl

theorem RedirectScheme.ofValue?_toValue {m : RedirectScheme} (h : m.Sound d) :
    ofValue? m.toValue = some m := by
  have hfield := @uniqueField?_fields d m.fields _ m.extra h rfl (by decide)
  have hscheme := @hfield "scheme" _ (List.mem_of_getElem? (i := 0) rfl)
  have hpermanent := @hfield "permanent" _ (List.mem_of_getElem? (i := 1) rfl)
  have hreadScheme : required Value.text? (some (.string m.scheme)) = some m.scheme := rfl
  have hreadPermanent : valueField? valueBool? (m.permanent.map .bool) = some m.permanent :=
    valueField?_write (fun b => Value.noConfusion) fun b _ => rfl
  have hextra := valueExtra?_record h (l := m.fields) rfl
  rw [toValue_eq, ofValue?, valueFields?_record]
  simp only [Option.bind_eq_bind, Option.bind_some, hscheme, hpermanent, hreadScheme,
    hreadPermanent, hextra, Option.pure_def]

theorem Headers.ofValue?_toValue {m : Headers} (h : m.Sound d) : ofValue? m.toValue = some m := by
  have hfield := @uniqueField?_fields (d + 1) m.fields _ m.extra h rfl (by decide)
  have hheaders := @hfield "customRequestHeaders" _ (List.mem_of_getElem? (i := 0) rfl)
  have hseconds := @hfield "stsSeconds" _ (List.mem_of_getElem? (i := 1) rfl)
  have hreadHeaders : valueField? valueDict? (m.customRequestHeaders.map (dictValue .string)) =
      some m.customRequestHeaders :=
    valueField?_write (fun r => Value.noConfusion) fun r _ => valueDict?_dictValue r
  have hreadSeconds : valueField? (valueNat? UInt64.size)
      (m.stsSeconds.map fun n => natValue n.toNat) = some (m.stsSeconds.map UInt64.toNat) :=
    valueField?_natValue (fun n => n.toNat_lt) m.stsSeconds
  have hextra := valueExtra?_record h (l := m.fields) rfl
  have hback : (m.stsSeconds.map UInt64.toNat).map UInt64.ofNat = m.stsSeconds := by
    cases m.stsSeconds <;> simp
  rw [toValue_eq, ofValue?, valueFields?_record]
  simp only [Option.bind_eq_bind, Option.bind_some, hheaders, hseconds, hreadHeaders,
    hreadSeconds, hextra, Option.pure_def, hback]

theorem BasicAuth.ofValue?_toValue {m : BasicAuth} (h : m.Sound d) :
    ofValue? m.toValue = some m := by
  have hfield := @uniqueField?_fields (d + 1) m.fields _ m.extra h rfl (by decide)
  have husers := @hfield "users" _ (List.mem_of_getElem? (i := 0) rfl)
  have hread : valueField? valueTexts? (m.users.map textList) = some m.users :=
    valueField?_write (fun l => Value.noConfusion) fun l _ => valueTexts?_textList l
  have hextra := valueExtra?_record h (l := m.fields) rfl
  rw [toValue_eq, ofValue?, valueFields?_record]
  simp only [Option.bind_eq_bind, Option.bind_some, husers, hread, hextra, Option.pure_def]

theorem IpStrategy.ofValue?_toValue {s : IpStrategy} (h : s.Sound d) :
    ofValue? s.toValue = some s := by
  have hfield := @uniqueField?_fields d s.fields _ s.extra h rfl (by decide)
  have hdepth := @hfield "depth" _ (List.mem_of_getElem? (i := 0) rfl)
  have hread : valueField? (valueNat? UInt32.size) (s.depth.map fun n => natValue n.toNat) =
      some (s.depth.map UInt32.toNat) := valueField?_natValue (fun n => n.toNat_lt) s.depth
  have hback : (s.depth.map UInt32.toNat).map UInt32.ofNat = s.depth := by
    cases s.depth <;> simp
  have hextra := valueExtra?_record h (l := s.fields) rfl
  rw [toValue_eq, ofValue?, valueFields?_record]
  simp only [Option.bind_eq_bind, Option.bind_some, hdepth, hread, hextra, Option.pure_def, hback]

theorem IpWhiteList.ofValue?_toValue {m : IpWhiteList} (h : m.Sound d) :
    ofValue? m.toValue = some m := by
  have hfield := @uniqueField?_fields (d + 1) m.fields _ m.extra h.extra rfl (by decide)
  have hsources := @hfield "sourceRange" _ (List.mem_of_getElem? (i := 0) rfl)
  have hstrategy := @hfield "ipStrategy" _ (List.mem_of_getElem? (i := 1) rfl)
  have hreadSources : valueField? valueTexts? (m.sourceRange.map textList) = some m.sourceRange :=
    valueField?_write (fun l => Value.noConfusion) fun l _ => valueTexts?_textList l
  have hreadStrategy : valueField? IpStrategy.ofValue? (m.ipStrategy.map IpStrategy.toValue) =
      some m.ipStrategy :=
    valueField?_write (fun s => Value.noConfusion) fun s hs =>
      IpStrategy.ofValue?_toValue (h.ipStrategy s hs)
  have hextra := valueExtra?_record h.extra (l := m.fields) rfl
  rw [toValue_eq, ofValue?, valueFields?_record]
  simp only [Option.bind_eq_bind, Option.bind_some, hsources, hstrategy, hreadSources,
    hreadStrategy, hextra, Option.pure_def]

theorem ForwardAuth.ofValue?_toValue {m : ForwardAuth} (h : m.Sound d) :
    ofValue? m.toValue = some m := by
  have hfield := @uniqueField?_fields d m.fields _ m.extra h rfl (by decide)
  have haddress := @hfield "address" _ (List.mem_of_getElem? (i := 0) rfl)
  have hread : required Value.text? (some (.string m.address)) = some m.address := rfl
  have hextra := valueExtra?_record h (l := m.fields) rfl
  rw [toValue_eq, ofValue?, valueFields?_record]
  simp only [Option.bind_eq_bind, Option.bind_some, haddress, hread, hextra, Option.pure_def]

/-- The entries of a middleware. -/
def Middleware.entries : Middleware → List (Value × Value)
  | .redirectScheme m => field "redirectScheme" m.toValue
  | .headers m => field "headers" m.toValue
  | .basicAuth m => field "basicAuth" m.toValue
  | .ipWhiteList m => field "ipWhiteList" m.toValue
  | .forwardAuth m => field "forwardAuth" m.toValue
  | .other entries => entries

theorem Middleware.toValue_eq (m : Middleware) : m.toValue = .mapping m.entries := by
  cases m <;> rfl

theorem Middleware.ofEntries?_entries {m : Middleware} (h : m.Sound d) :
    ofEntries? m.entries = some m := by
  cases m with
  | redirectScheme m => exact congrArg (Option.map _) (RedirectScheme.ofValue?_toValue h)
  | headers m => exact congrArg (Option.map _) (Headers.ofValue?_toValue h)
  | basicAuth m => exact congrArg (Option.map _) (BasicAuth.ofValue?_toValue h)
  | ipWhiteList m => exact congrArg (Option.map _) (IpWhiteList.ofValue?_toValue h)
  | forwardAuth m => exact congrArg (Option.map _) (ForwardAuth.ofValue?_toValue h)
  | other entries => exact h.2

/-- What is kept as it is is what was there. -/
theorem Middleware.eq_of_ofEntries?_other {es entries : List (Value × Value)}
    (h : ofEntries? es = some (.other entries)) : es = entries := by
  unfold ofEntries? at h
  split at h
  · split at h
    case h_6 => exact Middleware.other.inj (Option.some.inj h)
    all_goals
      obtain ⟨m, -, hm⟩ := Option.map_eq_some_iff.mp h
      exact nomatch hm
  · exact Middleware.other.inj (Option.some.inj h)

/-- A middleware is read back if and only if its tags are kept. -/
theorem Middleware.ofNode?_toValue_iff {m : Middleware} (h : m.Sound d) :
    ofNode? (m.toValue.toNode none) = some m ↔ m.toValue.allTags isProperTag = true := by
  have hread : Node.toEntries? true (entriesToNodes m.entries) = some m.entries ↔
      m.toValue.allTags isProperTag = true := by
    have hsound := sound_toValue h
    rw [toValue_eq] at hsound ⊢
    cases hsound with
    | mapping hkey hvalue hunlike =>
      exact toEntries?_entriesToNodes hunlike (fun e he => readsAsItself (hkey e he))
        fun e he => readsAsItself (hvalue e he)
  have hnode : ofNode? (m.toValue.toNode none) =
      (Node.toEntries? true (entriesToNodes m.entries)).bind ofEntries? := by
    rw [toValue_eq]
    rfl
  rw [hnode]
  constructor
  · intro hsome
    cases hm : m.isOther with
    | false => exact allTags_of_isBare _ _ (clean_toValue h hm).bare
    | true =>
      obtain ⟨entries, rfl⟩ : ∃ entries, m = .other entries := by
        cases m with
        | other entries => exact ⟨entries, rfl⟩
        | _ => exact nomatch hm
      obtain ⟨es, hes, hother⟩ := Option.bind_eq_some_iff.mp hsome
      obtain rfl := eq_of_ofEntries?_other hother
      exact hread.mp hes
  · intro htags
    rw [hread.mpr htags, Option.bind_some, ofEntries?_entries h]

/-! ## Graphs -/

theorem allTags_dictIfAny {α : Type} {write : α → Value} {r : Dict α} {p : String → Bool} :
    (∀ v ∈ dictIfAny write r, v.allTags p = true) ↔ ∀ x ∈ r.values, (write x).allTags p = true := by
  rw [dictIfAny]
  split
  · rename_i hempty
    obtain rfl := Dict.isEmpty_iff.mp hempty
    exact ⟨fun _ x hx => absurd hx List.not_mem_nil, fun _ v hv => absurd hv (Option.not_mem_none v)⟩
  · rw [← allTags_dictValue]
    exact ⟨fun h => h _ rfl, @forall_mem_some (fun v => v.allTags p = true) _⟩

/-- The only tags of a section are those of its middlewares. -/
theorem HttpSection.allTags_toValue {s : HttpSection} (h : s.Sound d) {p : String → Bool} :
    s.toValue.allTags p = true ↔ ∀ m ∈ s.middlewares.values, m.toValue.allTags p = true := by
  rw [toValue_eq, allTags_record]
  simp only [fields, List.forall_mem_cons, allTags_dictIfAny]
  constructor
  · rintro ⟨⟨-, -, hmiddlewares, -⟩, -⟩
    exact hmiddlewares
  · intro hmiddlewares
    refine ⟨⟨fun r hr => ?_, fun r hr => ?_, hmiddlewares, List.forall_mem_nil _⟩, fun f hf => ?_⟩
    · exact allTags_of_isBare p _ (Router.clean_toValue (h.routers r hr)).bare
    · exact allTags_of_isBare p _ (Service.clean_toValue (h.services r hr)).bare
    · exact allTags_of_isBare p _ (h.extra.bare f hf)

/-- The only tags of a graph are those of its middlewares. -/
theorem Graph.allTags_toValue {g : Graph} (h : g.Sound d) {p : String → Bool} :
    g.toValue.allTags p = true ↔ ∀ m ∈ g.http.middlewares.values, m.toValue.allTags p = true := by
  have hextra : ∀ f ∈ g.extra.entries, f.2.allTags p = true := fun f hf =>
    allTags_of_isBare p _ (h.extra.bare f hf)
  rw [toValue_eq, allTags_record, and_iff_left hextra, fields, List.forall_mem_singleton, httpIfAny]
  split
  · rename_i hempty
    rw [HttpSection.isEmpty, Bool.and_eq_true, Bool.and_eq_true] at hempty
    rw [Dict.isEmpty_iff.mp hempty.1.2]
    exact ⟨fun _ m hm => absurd hm List.not_mem_nil, fun _ v hv => absurd hv (Option.not_mem_none v)⟩
  · rw [← HttpSection.allTags_toValue h.http]
    exact ⟨fun h => h _ rfl, @forall_mem_some (fun v => v.allTags p = true) _⟩

/-- Of a section that was written all is read back as it was but its middlewares. -/
theorem HttpSection.ofNode?_toValue {s : HttpSection} (h : s.Sound d) :
    ofNode? (s.toValue.toNode none) = (nodeDictField? Middleware.ofNode?
      ((dictIfAny Middleware.toValue s.middlewares).map (toNode none))).map
        fun middlewares => { s with middlewares := middlewares } := by
  have hfield := @uniqueField?_record s.fields _ (d + 5) s.extra h.extra rfl (by decide) _ (toNode none)
  have hrouters := @hfield "routers" _ (List.mem_of_getElem? (i := 0) rfl)
  have hservices := @hfield "services" _ (List.mem_of_getElem? (i := 1) rfl)
  have hmiddlewares := @hfield "middlewares" _ (List.mem_of_getElem? (i := 2) rfl)
  have hreadRouters : nodeDictField? Router.ofNode?
      ((dictIfAny Router.toValue s.routers).map (toNode none)) = some s.routers :=
    nodeDictField?_dictIfAny_iff.mpr fun r hr => Router.ofNode?_toValue (h.routers r hr)
  have hreadServices : nodeDictField? Service.ofNode?
      ((dictIfAny Service.toValue s.services).map (toNode none)) = some s.services :=
    nodeDictField?_dictIfAny_iff.mpr fun r hr => Service.ofNode?_toValue (h.services r hr)
  have hextra := nodeExtra?_record h.extra (l := s.fields) rfl
  rw [toValue_eq, ofNode?, nodeFields?_record, Option.map_eq_bind]
  simp only [Option.bind_eq_bind, Option.bind_some, hrouters, hservices, hmiddlewares,
    hreadRouters, hreadServices, hextra, Option.pure_def]
  rfl

theorem HttpSection.ofNode?_toValue_iff {s : HttpSection} (h : s.Sound d) :
    ofNode? (s.toValue.toNode none) = some s ↔
      ∀ m ∈ s.middlewares.values, m.toValue.allTags isProperTag = true := by
  have hread : nodeDictField? Middleware.ofNode?
      ((dictIfAny Middleware.toValue s.middlewares).map (toNode none)) = some s.middlewares ↔
      ∀ m ∈ s.middlewares.values, m.toValue.allTags isProperTag = true := by
    rw [nodeDictField?_dictIfAny_iff]
    exact forall₂_congr fun m hm => Middleware.ofNode?_toValue_iff (h.middlewares m hm)
  rw [ofNode?_toValue h, Option.map_eq_some_iff, ← hread]
  constructor
  · rintro ⟨middlewares, hmiddlewares, heq⟩
    rw [hmiddlewares, ← congrArg HttpSection.middlewares heq]
  · exact fun hmiddlewares => ⟨s.middlewares, hmiddlewares, rfl⟩

theorem HttpSection.eq_default_of_isEmpty {s : HttpSection} (h : s.isEmpty = true) : s = {} := by
  obtain ⟨routers, services, middlewares, extra⟩ := s
  simp only [isEmpty, Bool.and_eq_true, Dict.isEmpty_iff] at h
  obtain ⟨⟨⟨rfl, rfl⟩, rfl⟩, rfl⟩ := h
  rfl

/-- Of a graph that was written all is read back as it was but what is in its section. -/
theorem Graph.ofNode?_toValue {g : Graph} (h : g.Sound d) : ofNode? (g.toValue.toNode none) =
    (if g.http.isEmpty then some g.http else HttpSection.ofNode? (g.http.toValue.toNode none)).map
      fun http => { g with http := http } := by
  have hhttp := @uniqueField?_record g.fields _ (d + 6) g.extra h.extra rfl (by decide) _ (toNode none)
    "http" _ (List.mem_of_getElem? (i := 0) rfl)
  have hextra := nodeExtra?_record h.extra (l := g.fields) rfl
  rw [toValue_eq, ofNode?, nodeFields?_record]
  simp only [Option.bind_eq_bind, Option.bind_some, hhttp, hextra, Option.pure_def]
  by_cases hempty : g.http.isEmpty = true
  · rw [httpIfAny, if_pos hempty, if_pos hempty]
    show some (Graph.mk {} g.extra) = some g
    rw [← HttpSection.eq_default_of_isEmpty hempty]
  · rw [httpIfAny, if_neg hempty, if_neg hempty]
    show ((HttpSection.ofNode? (g.http.toValue.toNode none)).bind fun http =>
      some (Graph.mk http g.extra)) = _
    rw [Option.map_eq_bind]
    rfl

/-- A graph is read back if and only if its tags are kept. -/
theorem Graph.ofNode?_toValue_iff {g : Graph} (h : g.Sound d) :
    ofNode? (g.toValue.toNode none) = some g ↔ g.toValue.allTags isProperTag = true := by
  rw [allTags_toValue h, ofNode?_toValue h]
  by_cases hempty : g.http.isEmpty = true
  · rw [if_pos hempty, HttpSection.eq_default_of_isEmpty hempty]
    refine ⟨fun _ m hm => absurd hm List.not_mem_nil, fun _ => ?_⟩
    rw [← HttpSection.eq_default_of_isEmpty hempty]
    rfl
  · rw [if_neg hempty, ← HttpSection.ofNode?_toValue_iff h.http, Option.map_eq_some_iff]
    constructor
    · rintro ⟨http, hread, heq⟩
      rw [hread, ← congrArg Graph.http heq]
    · exact fun hread => ⟨g.http, hread, rfl⟩

end RouteFleet
