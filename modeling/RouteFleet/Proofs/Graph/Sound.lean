import RouteFleet.Proofs.Graph.Reader

/-! # Graphs that come of documents

What stands beside the managed fields of a graph that was read is under other names, has no tags and
does not nest too deeply; a middleware that is kept as it is does not look like a managed one.
`Graph.Sound` says so. Every graph that is read is sound (`Graph.sound_of_ofNode?`), and a sound graph
is written as a sound value (`Graph.sound_toValue`).

The depth of a predicate is how deeply the innermost extra values may nest.
-/

namespace RouteFleet

open Yaml Value

variable {d : Nat}

/-! ## Sound values without tags -/

/-- A sound value without tags. -/
structure Yaml.Value.Clean (d : Nat) (v : Value) : Prop where
  sound : Value.Sound d v
  bare : v.isBare = true

theorem clean_string (s : String) : Clean d (.string s) := ⟨.string s, rfl⟩

theorem clean_sequence {items : List Value} (h : ∀ v ∈ items, Clean d v) :
    Clean (d + 1) (.sequence items) :=
  ⟨.sequence fun v hv => (h v hv).sound, allTagsOfItems_eq_true.mpr fun v hv => (h v hv).bare⟩

theorem clean_textList (l : List String) : Clean (d + 1) (textList l) := by
  refine clean_sequence fun v hv => ?_
  obtain ⟨s, -, rfl⟩ := List.mem_map.mp hv
  exact clean_string s

theorem clean_natValue {n : Nat} (h : n < UInt64.size) : Clean d (natValue n) := by
  refine ⟨.number ⟨?_, Int.ofNat_lt.mpr h⟩, rfl⟩
  exact Int.le_trans (by decide) (Int.natCast_nonneg n)

theorem clean_record {l : List (String × Option Value)} {known : List String} {e : Extra}
    (he : e.Sound known d) (hl : l.map (·.1) = known) (hknown : known.Nodup)
    (h : ∀ f ∈ l, ∀ v ∈ f.2, Clean d v) : Clean (d + 1) (record l e) :=
  ⟨sound_record he hl hknown fun f hf v hv => (h f hf v hv).sound,
    allTags_record.mpr ⟨fun f hf v hv => (h f hf v hv).bare, he.bare⟩⟩

/-- What is said of each value that is written for a field is said of the field. -/
theorem forall_mem_write {α : Type} {p : Value → Prop} {write : α → Value} {o : Option α}
    (h : ∀ x ∈ o, p (write x)) : ∀ v ∈ o.map write, p v := by
  intro v hv
  obtain ⟨x, hx, rfl⟩ := Option.mem_map.mp hv
  exact h x hx

theorem forall_mem_some {p : Value → Prop} {v : Value} (h : p v) : ∀ w ∈ some v, p w := by
  rintro w ⟨⟩
  exact h

section Dictionaries

variable {α : Type} {write : α → Value} {r : Dict α}

theorem dictValue_eq (write : α → Value) (r : Dict α) :
    dictValue write r = .mapping ((r.entries.map fun e => (e.1, write e.2)).map asEntry) := by
  rw [dictValue, List.map_map]
  rfl

theorem sound_dictValue (h : ∀ x ∈ r.values, Value.Sound d (write x)) :
    Value.Sound (d + 1) (dictValue write r) := by
  rw [dictValue_eq]
  refine .mapping ?_ ?_ (unlike_fields ?_)
  · intro entry hentry
    obtain ⟨f, -, rfl⟩ := List.mem_map.mp hentry
    exact .string f.1
  · intro entry hentry
    obtain ⟨f, hf, rfl⟩ := List.mem_map.mp hentry
    obtain ⟨e, he, rfl⟩ := List.mem_map.mp hf
    exact h e.2 (List.mem_map.mpr ⟨e, he, rfl⟩)
  · rw [List.map_map]
    exact r.nodup_keys

theorem allTags_dictValue {p : String → Bool} :
    (dictValue write r).allTags p = true ↔ ∀ x ∈ r.values, (write x).allTags p = true := by
  rw [dictValue, allTags, allTagsOfEntries_eq_true, List.forall_mem_map, Dict.values,
    List.forall_mem_map]
  exact forall₂_congr fun e _ => and_iff_right rfl

theorem clean_dictValue (h : ∀ x ∈ r.values, Clean d (write x)) : Clean (d + 1) (dictValue write r) :=
  ⟨sound_dictValue fun x hx => (h x hx).sound, allTags_dictValue.mpr fun x hx => (h x hx).bare⟩

end Dictionaries

/-! ## Routers -/

/-- Whether a TLS block can come of a document. -/
def RouterTls.Sound (d : Nat) (t : RouterTls) : Prop := t.extra.Sound ["certResolver"] d

/-- Whether a router can come of a document. -/
structure Router.Sound (d : Nat) (r : Router) : Prop where
  tls : ∀ t ∈ r.tls, t.Sound d
  extra : r.extra.Sound ["entryPoints", "rule", "service", "tls", "middlewares"] (d + 1)

/-- The managed fields of a TLS block. -/
def RouterTls.fields (t : RouterTls) : List (String × Option Value) :=
  [("certResolver", t.certResolver.map .string)]

theorem RouterTls.toValue_eq (t : RouterTls) : t.toValue = record t.fields t.extra := by
  simp only [toValue, record, fields, fieldIfAny_eq, extraFields_eq, ← List.map_append]

/-- The managed fields of a router. -/
def Router.fields (r : Router) : List (String × Option Value) :=
  [("entryPoints", r.entryPoints.map textList), ("rule", some (.string r.rule)),
    ("service", r.service.map .string), ("tls", r.tls.map RouterTls.toValue),
    ("middlewares", r.middlewares.map textList)]

theorem Router.toValue_eq (r : Router) : r.toValue = record r.fields r.extra := by
  simp only [toValue, record, fields, fieldIfAny_eq, field_eq, extraFields_eq, ← List.map_append,
    ← presentFields_append]
  rfl

theorem RouterTls.clean_toValue {t : RouterTls} (h : t.Sound d) : Clean (d + 1) t.toValue := by
  rw [toValue_eq]
  refine clean_record h rfl (by decide) ?_
  simp only [fields, List.forall_mem_cons]
  exact ⟨forall_mem_write fun s _ => clean_string s, List.forall_mem_nil _⟩

theorem Router.clean_toValue {r : Router} (h : r.Sound d) : Clean (d + 2) r.toValue := by
  rw [toValue_eq]
  refine clean_record h.extra rfl (by decide) ?_
  simp only [fields, List.forall_mem_cons]
  exact ⟨forall_mem_write fun l _ => clean_textList l, forall_mem_some (clean_string r.rule),
    forall_mem_write fun s _ => clean_string s,
    forall_mem_write fun t ht => RouterTls.clean_toValue (h.tls t ht),
    forall_mem_write fun l _ => clean_textList l, List.forall_mem_nil _⟩

theorem RouterTls.sound_of_ofNode? {n : Node} {t : RouterTls} (h : n.Within (d + 1))
    (hread : ofNode? n = some t) : t.Sound d := by
  simp only [ofNode?, Option.bind_eq_bind, Option.bind_eq_some_iff, Option.pure_def,
    Option.some.injEq] at hread
  obtain ⟨fields, hfields, -, -, -, -, extra, hextra, rfl⟩ := hread
  exact Extra.sound_of_nodeExtra? (within_of_nodeFields? h hfields) hextra

theorem Router.sound_of_ofNode? {n : Node} {r : Router} (h : n.Within (d + 2))
    (hread : ofNode? n = some r) : r.Sound d := by
  simp only [ofNode?, Option.bind_eq_bind, Option.bind_eq_some_iff, Option.pure_def,
    Option.some.injEq] at hread
  obtain ⟨fields, hfields, -, -, -, -, -, -, -, -, -, -, -, -, o, ho, tls, htls, -, -, -, -,
    extra, hextra, rfl⟩ := hread
  have hwithin := within_of_nodeFields? h hfields
  refine ⟨?_, Extra.sound_of_nodeExtra? hwithin hextra⟩
  rintro t (rfl : tls = some t)
  obtain ⟨m, hm, ht⟩ := exists_of_nodeField?_of_mem hwithin ho htls
  exact RouterTls.sound_of_ofNode? hm ht

/-! ## Services -/

/-- Whether a server can come of a document. -/
def Server.Sound (d : Nat) (s : Server) : Prop := s.extra.Sound ["url"] d

/-- Whether a load balancer can come of a document. -/
structure LoadBalancer.Sound (d : Nat) (b : LoadBalancer) : Prop where
  servers : ∀ l ∈ b.servers, ∀ s ∈ l, s.Sound d
  extra : b.extra.Sound ["servers"] (d + 2)

/-- Whether a service can come of a document. -/
structure Service.Sound (d : Nat) (s : Service) : Prop where
  loadBalancer : ∀ b ∈ s.loadBalancer, b.Sound d
  extra : s.extra.Sound ["loadBalancer"] (d + 3)

/-- The managed fields of a server. -/
def Server.fields (s : Server) : List (String × Option Value) :=
  [("url", some (.string s.url))]

theorem Server.toValue_eq (s : Server) : s.toValue = record s.fields s.extra := by
  simp only [toValue, record, fields, field_eq, extraFields_eq, ← List.map_append]

/-- Writes a list of servers. -/
def serversValue (l : List Server) : Value := .sequence (l.map Server.toValue)

/-- The managed fields of a load balancer. -/
def LoadBalancer.fields (b : LoadBalancer) : List (String × Option Value) :=
  [("servers", b.servers.map serversValue)]

theorem LoadBalancer.toValue_eq (b : LoadBalancer) : b.toValue = record b.fields b.extra := by
  simp only [toValue, record, fields, fieldIfAny_eq, extraFields_eq, ← List.map_append]
  rfl

/-- The managed fields of a service. -/
def Service.fields (s : Service) : List (String × Option Value) :=
  [("loadBalancer", s.loadBalancer.map LoadBalancer.toValue)]

theorem Service.toValue_eq (s : Service) : s.toValue = record s.fields s.extra := by
  simp only [toValue, record, fields, fieldIfAny_eq, extraFields_eq, ← List.map_append]

theorem Server.clean_toValue {s : Server} (h : s.Sound d) : Clean (d + 1) s.toValue := by
  rw [toValue_eq]
  refine clean_record h rfl (by decide) ?_
  simp only [fields, List.forall_mem_cons]
  exact ⟨forall_mem_some (clean_string s.url), List.forall_mem_nil _⟩

theorem LoadBalancer.clean_toValue {b : LoadBalancer} (h : b.Sound d) :
    Clean (d + 3) b.toValue := by
  rw [toValue_eq]
  refine clean_record h.extra rfl (by decide) ?_
  simp only [fields, List.forall_mem_cons]
  refine ⟨forall_mem_write fun l hl => clean_sequence fun v hv => ?_, List.forall_mem_nil _⟩
  obtain ⟨s, hs, rfl⟩ := List.mem_map.mp hv
  exact Server.clean_toValue (h.servers l hl s hs)

theorem Service.clean_toValue {s : Service} (h : s.Sound d) : Clean (d + 4) s.toValue := by
  rw [toValue_eq]
  refine clean_record h.extra rfl (by decide) ?_
  simp only [fields, List.forall_mem_cons]
  exact ⟨forall_mem_write fun b hb => LoadBalancer.clean_toValue (h.loadBalancer b hb),
    List.forall_mem_nil _⟩

theorem Server.sound_of_ofNode? {n : Node} {s : Server} (h : n.Within (d + 1))
    (hread : ofNode? n = some s) : s.Sound d := by
  simp only [ofNode?, Option.bind_eq_bind, Option.bind_eq_some_iff, Option.pure_def,
    Option.some.injEq] at hread
  obtain ⟨fields, hfields, -, -, -, -, extra, hextra, rfl⟩ := hread
  exact Extra.sound_of_nodeExtra? (within_of_nodeFields? h hfields) hextra

theorem LoadBalancer.sound_of_ofNode? {n : Node} {b : LoadBalancer} (h : n.Within (d + 3))
    (hread : ofNode? n = some b) : b.Sound d := by
  simp only [ofNode?, Option.bind_eq_bind, Option.bind_eq_some_iff, Option.pure_def,
    Option.some.injEq] at hread
  obtain ⟨fields, hfields, o, ho, servers, hservers, extra, hextra, rfl⟩ := hread
  have hwithin := within_of_nodeFields? h hfields
  refine ⟨?_, Extra.sound_of_nodeExtra? hwithin hextra⟩
  rintro l (rfl : servers = some l) s hs
  obtain ⟨m, hm, hl⟩ := exists_of_nodeField?_of_mem hwithin ho hservers
  obtain ⟨items, hitems, hl⟩ := Option.bind_eq_some_iff.mp hl
  obtain ⟨item, hitem, hs⟩ := exists_of_mem_mapM_some hl hs
  exact Server.sound_of_ofNode? (within_of_nodeItems? hm hitems item hitem) hs

theorem Service.sound_of_ofNode? {n : Node} {s : Service} (h : n.Within (d + 4))
    (hread : ofNode? n = some s) : s.Sound d := by
  simp only [ofNode?, Option.bind_eq_bind, Option.bind_eq_some_iff, Option.pure_def,
    Option.some.injEq] at hread
  obtain ⟨fields, hfields, o, ho, b, hb, extra, hextra, rfl⟩ := hread
  have hwithin := within_of_nodeFields? h hfields
  refine ⟨?_, Extra.sound_of_nodeExtra? hwithin hextra⟩
  rintro c (rfl : b = some c)
  obtain ⟨m, hm, hc⟩ := exists_of_nodeField?_of_mem hwithin ho hb
  exact LoadBalancer.sound_of_ofNode? hm hc

/-! ## Middlewares -/

/-- Whether the body of a redirection can come of a document. -/
def RedirectScheme.Sound (d : Nat) (m : RedirectScheme) : Prop :=
  m.extra.Sound ["scheme", "permanent"] d

/-- Whether the body of a middleware that adds headers can come of a document. -/
def Headers.Sound (d : Nat) (m : Headers) : Prop :=
  m.extra.Sound ["customRequestHeaders", "stsSeconds"] (d + 1)

/-- Whether the body of a users' middleware can come of a document. -/
def BasicAuth.Sound (d : Nat) (m : BasicAuth) : Prop := m.extra.Sound ["users"] (d + 1)

/-- Whether what says which address is the client's can come of a document. -/
def IpStrategy.Sound (d : Nat) (s : IpStrategy) : Prop := s.extra.Sound ["depth"] d

/-- Whether the body of an address list can come of a document. -/
structure IpWhiteList.Sound (d : Nat) (m : IpWhiteList) : Prop where
  ipStrategy : ∀ s ∈ m.ipStrategy, s.Sound d
  extra : m.extra.Sound ["sourceRange", "ipStrategy"] (d + 1)

/-- Whether the body of a middleware that asks another server can come of a document. -/
def ForwardAuth.Sound (d : Nat) (m : ForwardAuth) : Prop := m.extra.Sound ["address"] d

/-- Whether a middleware can come of a document. One that is kept as it is is not taken for one of a
managed kind. -/
def Middleware.Sound (d : Nat) : Middleware → Prop
  | .redirectScheme m => m.Sound (d + 1)
  | .headers m => m.Sound d
  | .basicAuth m => m.Sound d
  | .ipWhiteList m => m.Sound d
  | .forwardAuth m => m.Sound (d + 1)
  | .other entries => Value.Sound (d + 3) (.mapping entries) ∧
    Middleware.ofEntries? entries = some (.other entries)

/-- The managed fields of the body of a redirection. -/
def RedirectScheme.fields (m : RedirectScheme) : List (String × Option Value) :=
  [("scheme", some (.string m.scheme)), ("permanent", m.permanent.map .bool)]

theorem RedirectScheme.toValue_eq (m : RedirectScheme) : m.toValue = record m.fields m.extra := by
  simp only [toValue, record, fields, fieldIfAny_eq, field_eq, extraFields_eq, ← List.map_append,
    ← presentFields_append]
  rfl

/-- The managed fields of the body of a middleware that adds headers. -/
def Headers.fields (m : Headers) : List (String × Option Value) :=
  [("customRequestHeaders", m.customRequestHeaders.map (dictValue .string)),
    ("stsSeconds", m.stsSeconds.map fun n => natValue n.toNat)]

theorem Headers.toValue_eq (m : Headers) : m.toValue = record m.fields m.extra := by
  simp only [toValue, record, fields, fieldIfAny_eq, extraFields_eq, ← List.map_append,
    ← presentFields_append]
  rfl

/-- The managed fields of the body of a users' middleware. -/
def BasicAuth.fields (m : BasicAuth) : List (String × Option Value) :=
  [("users", m.users.map textList)]

theorem BasicAuth.toValue_eq (m : BasicAuth) : m.toValue = record m.fields m.extra := by
  simp only [toValue, record, fields, fieldIfAny_eq, extraFields_eq, ← List.map_append]

/-- The managed fields of what says which address is the client's. -/
def IpStrategy.fields (s : IpStrategy) : List (String × Option Value) :=
  [("depth", s.depth.map fun n => natValue n.toNat)]

theorem IpStrategy.toValue_eq (s : IpStrategy) : s.toValue = record s.fields s.extra := by
  simp only [toValue, record, fields, fieldIfAny_eq, extraFields_eq, ← List.map_append]

/-- The managed fields of the body of an address list. -/
def IpWhiteList.fields (m : IpWhiteList) : List (String × Option Value) :=
  [("sourceRange", m.sourceRange.map textList),
    ("ipStrategy", m.ipStrategy.map IpStrategy.toValue)]

theorem IpWhiteList.toValue_eq (m : IpWhiteList) : m.toValue = record m.fields m.extra := by
  simp only [toValue, record, fields, fieldIfAny_eq, extraFields_eq, ← List.map_append,
    ← presentFields_append]
  rfl

/-- The managed fields of the body of a middleware that asks another server. -/
def ForwardAuth.fields (m : ForwardAuth) : List (String × Option Value) :=
  [("address", some (.string m.address))]

theorem ForwardAuth.toValue_eq (m : ForwardAuth) : m.toValue = record m.fields m.extra := by
  simp only [toValue, record, fields, field_eq, extraFields_eq, ← List.map_append]

theorem RedirectScheme.clean_toValue {m : RedirectScheme} (h : m.Sound d) :
    Clean (d + 1) m.toValue := by
  rw [toValue_eq]
  refine clean_record h rfl (by decide) ?_
  simp only [fields, List.forall_mem_cons]
  exact ⟨forall_mem_some (clean_string m.scheme), forall_mem_write fun b _ => ⟨.bool b, rfl⟩,
    List.forall_mem_nil _⟩

theorem Headers.clean_toValue {m : Headers} (h : m.Sound d) : Clean (d + 2) m.toValue := by
  rw [toValue_eq]
  refine clean_record h rfl (by decide) ?_
  simp only [fields, List.forall_mem_cons]
  exact ⟨forall_mem_write fun r _ => clean_dictValue fun s _ => clean_string s,
    forall_mem_write fun n _ => clean_natValue n.toNat_lt, List.forall_mem_nil _⟩

theorem BasicAuth.clean_toValue {m : BasicAuth} (h : m.Sound d) : Clean (d + 2) m.toValue := by
  rw [toValue_eq]
  refine clean_record h rfl (by decide) ?_
  simp only [fields, List.forall_mem_cons]
  exact ⟨forall_mem_write fun l _ => clean_textList l, List.forall_mem_nil _⟩

theorem IpStrategy.clean_toValue {s : IpStrategy} (h : s.Sound d) : Clean (d + 1) s.toValue := by
  rw [toValue_eq]
  refine clean_record h rfl (by decide) ?_
  simp only [fields, List.forall_mem_cons]
  have hbound : ∀ n : UInt32, n.toNat < UInt64.size := fun n =>
    Nat.lt_trans n.toNat_lt (by decide)
  exact ⟨forall_mem_write fun n _ => clean_natValue (hbound n), List.forall_mem_nil _⟩

theorem IpWhiteList.clean_toValue {m : IpWhiteList} (h : m.Sound d) : Clean (d + 2) m.toValue := by
  rw [toValue_eq]
  refine clean_record h.extra rfl (by decide) ?_
  simp only [fields, List.forall_mem_cons]
  exact ⟨forall_mem_write fun l _ => clean_textList l,
    forall_mem_write fun s hs => IpStrategy.clean_toValue (h.ipStrategy s hs),
    List.forall_mem_nil _⟩

theorem ForwardAuth.clean_toValue {m : ForwardAuth} (h : m.Sound d) : Clean (d + 1) m.toValue := by
  rw [toValue_eq]
  refine clean_record h rfl (by decide) ?_
  simp only [fields, List.forall_mem_cons]
  exact ⟨forall_mem_some (clean_string m.address), List.forall_mem_nil _⟩

theorem RedirectScheme.sound_of_ofValue? {v : Value} {m : RedirectScheme}
    (h : Value.Sound (d + 1) v) (hread : ofValue? v = some m) : m.Sound d := by
  simp only [ofValue?, Option.bind_eq_bind, Option.bind_eq_some_iff, Option.pure_def,
    Option.some.injEq] at hread
  obtain ⟨fields, hfields, -, -, -, -, -, -, -, -, extra, hextra, rfl⟩ := hread
  exact Extra.sound_of_valueExtra? (sound_of_valueFields? h hfields) hextra

theorem Headers.sound_of_ofValue? {v : Value} {m : Headers} (h : Value.Sound (d + 2) v)
    (hread : ofValue? v = some m) : m.Sound d := by
  simp only [ofValue?, Option.bind_eq_bind, Option.bind_eq_some_iff, Option.pure_def,
    Option.some.injEq] at hread
  obtain ⟨fields, hfields, -, -, -, -, -, -, -, -, extra, hextra, rfl⟩ := hread
  exact Extra.sound_of_valueExtra? (sound_of_valueFields? h hfields) hextra

theorem BasicAuth.sound_of_ofValue? {v : Value} {m : BasicAuth} (h : Value.Sound (d + 2) v)
    (hread : ofValue? v = some m) : m.Sound d := by
  simp only [ofValue?, Option.bind_eq_bind, Option.bind_eq_some_iff, Option.pure_def,
    Option.some.injEq] at hread
  obtain ⟨fields, hfields, -, -, -, -, extra, hextra, rfl⟩ := hread
  exact Extra.sound_of_valueExtra? (sound_of_valueFields? h hfields) hextra

theorem IpStrategy.sound_of_ofValue? {v : Value} {s : IpStrategy} (h : Value.Sound (d + 1) v)
    (hread : ofValue? v = some s) : s.Sound d := by
  simp only [ofValue?, Option.bind_eq_bind, Option.bind_eq_some_iff, Option.pure_def,
    Option.some.injEq] at hread
  obtain ⟨fields, hfields, -, -, -, -, extra, hextra, rfl⟩ := hread
  exact Extra.sound_of_valueExtra? (sound_of_valueFields? h hfields) hextra

theorem IpWhiteList.sound_of_ofValue? {v : Value} {m : IpWhiteList} (h : Value.Sound (d + 2) v)
    (hread : ofValue? v = some m) : m.Sound d := by
  simp only [ofValue?, Option.bind_eq_bind, Option.bind_eq_some_iff, Option.pure_def,
    Option.some.injEq] at hread
  obtain ⟨fields, hfields, -, -, -, -, o, ho, strategy, hstrategy, extra, hextra, rfl⟩ := hread
  have hsound := sound_of_valueFields? h hfields
  refine ⟨?_, Extra.sound_of_valueExtra? hsound hextra⟩
  rintro s (rfl : strategy = some s)
  obtain ⟨w, rfl, hw⟩ := exists_of_valueField? hstrategy
  exact IpStrategy.sound_of_ofValue? (hsound _ (mem_of_uniqueField? ho)) hw

theorem ForwardAuth.sound_of_ofValue? {v : Value} {m : ForwardAuth} (h : Value.Sound (d + 1) v)
    (hread : ofValue? v = some m) : m.Sound d := by
  simp only [ofValue?, Option.bind_eq_bind, Option.bind_eq_some_iff, Option.pure_def,
    Option.some.injEq] at hread
  obtain ⟨fields, hfields, -, -, -, -, extra, hextra, rfl⟩ := hread
  exact Extra.sound_of_valueExtra? (sound_of_valueFields? h hfields) hextra

theorem Middleware.sound_of_ofEntries? {entries : List (Value × Value)} {m : Middleware}
    (h : Value.Sound (d + 3) (.mapping entries)) (hread : ofEntries? entries = some m) :
    m.Sound d := by
  have hbodies : ∀ e ∈ entries, Value.Sound (d + 2) e.2 := by
    cases h with
    | mapping _ hvalue _ => exact hvalue
  have hother : some (Middleware.other entries) = some m → m.Sound d := by
    rintro ⟨⟩
    exact ⟨h, hread⟩
  have hmanaged := hread
  unfold ofEntries? at hmanaged
  split at hmanaged
  · rename_i key body
    have hbody : Value.Sound (d + 2) body := hbodies (key, body) (List.mem_singleton_self _)
    split at hmanaged
    · obtain ⟨c, hc, rfl⟩ := Option.map_eq_some_iff.mp hmanaged
      exact RedirectScheme.sound_of_ofValue? hbody hc
    · obtain ⟨c, hc, rfl⟩ := Option.map_eq_some_iff.mp hmanaged
      exact Headers.sound_of_ofValue? hbody hc
    · obtain ⟨c, hc, rfl⟩ := Option.map_eq_some_iff.mp hmanaged
      exact BasicAuth.sound_of_ofValue? hbody hc
    · obtain ⟨c, hc, rfl⟩ := Option.map_eq_some_iff.mp hmanaged
      exact IpWhiteList.sound_of_ofValue? hbody hc
    · obtain ⟨c, hc, rfl⟩ := Option.map_eq_some_iff.mp hmanaged
      exact ForwardAuth.sound_of_ofValue? hbody hc
    · exact hother hmanaged
  · exact hother hmanaged

theorem Middleware.sound_of_ofNode? {n : Node} {m : Middleware} (h : n.Within (d + 3))
    (hread : ofNode? n = some m) : m.Sound d := by
  simp only [ofNode?, Option.bind_eq_bind, Option.bind_eq_some_iff] at hread
  obtain ⟨entries, hentries, es, hes, hread⟩ := hread
  have hboth : ∀ e ∈ entries, e.1.Within (d + 2) ∧ e.2.Within (d + 2) := by
    unfold nodeEntries? at hentries
    split at hentries
    · obtain rfl := Option.some.inj hentries
      cases h with
      | mapping _ hkey hvalue => exact fun e he => ⟨hkey e he, hvalue e he⟩
    · split at hentries
      · obtain rfl := Option.some.inj hentries
        exact List.forall_mem_nil _
      · exact nomatch hentries
  obtain ⟨⟨hkeys, hvalues, hunlike⟩, -⟩ := Node.gives_entries
    (fun e he => Node.gives_of_toValue? (hboth e he).1)
    (fun e he => Node.gives_of_toValue? (hboth e he).2) hes
  exact sound_of_ofEntries? (.mapping hkeys hvalues hunlike) hread

/-- A body under the name of its kind. -/
theorem clean_field {key : String} {v : Value} (h : Clean d v) :
    Clean (d + 1) (.mapping (field key v)) := by
  have hrecord : Value.mapping (field key v) = record [(key, some v)] .empty := rfl
  rw [hrecord]
  have hextra : Extra.Sound [key] d .empty :=
    ⟨List.forall_mem_nil _, List.forall_mem_nil _, List.forall_mem_nil _⟩
  refine clean_record hextra rfl (List.nodup_singleton key) ?_
  rw [List.forall_mem_singleton]
  exact forall_mem_some h

/-- Whether a middleware is kept as it is. -/
def Middleware.isOther : Middleware → Bool
  | .other _ => true
  | _ => false

theorem Middleware.clean_toValue {m : Middleware} (h : m.Sound d) (hmanaged : m.isOther = false) :
    Clean (d + 3) m.toValue := by
  cases m with
  | redirectScheme m => exact clean_field (RedirectScheme.clean_toValue h)
  | headers m => exact clean_field (Headers.clean_toValue h)
  | basicAuth m => exact clean_field (BasicAuth.clean_toValue h)
  | ipWhiteList m => exact clean_field (IpWhiteList.clean_toValue h)
  | forwardAuth m => exact clean_field (ForwardAuth.clean_toValue h)
  | other entries => exact nomatch hmanaged

theorem Middleware.sound_toValue {m : Middleware} (h : m.Sound d) :
    Value.Sound (d + 3) m.toValue := by
  cases hm : m.isOther with
  | false => exact (clean_toValue h hm).sound
  | true =>
    cases m with
    | other entries => exact h.1
    | _ => exact nomatch hm

/-! ## Graphs -/

/-- Whether a section can come of a document. -/
structure HttpSection.Sound (d : Nat) (s : HttpSection) : Prop where
  routers : ∀ r ∈ s.routers.values, r.Sound (d + 2)
  services : ∀ r ∈ s.services.values, r.Sound d
  middlewares : ∀ m ∈ s.middlewares.values, m.Sound (d + 1)
  extra : s.extra.Sound ["routers", "services", "middlewares"] (d + 5)

/-- Whether a graph can come of a document. -/
structure Graph.Sound (d : Nat) (g : Graph) : Prop where
  http : g.http.Sound d
  extra : g.extra.Sound ["http"] (d + 6)

theorem dictField_eq {α : Type} (key : String) (write : α → Value) (r : Dict α) :
    dictField key write r = (presentFields [(key, dictIfAny write r)]).map asEntry := by
  rw [dictField, dictIfAny]
  split <;> rfl

/-- The managed fields of a section. -/
def HttpSection.fields (s : HttpSection) : List (String × Option Value) :=
  [("routers", dictIfAny Router.toValue s.routers),
    ("services", dictIfAny Service.toValue s.services),
    ("middlewares", dictIfAny Middleware.toValue s.middlewares)]

theorem HttpSection.toValue_eq (s : HttpSection) : s.toValue = record s.fields s.extra := by
  simp only [toValue, record, fields, dictField_eq, extraFields_eq, ← List.map_append,
    ← presentFields_append]
  rfl

/-- The section of a graph, if there is something in it. -/
def Graph.httpIfAny (g : Graph) : Option Value :=
  if g.http.isEmpty then none else some g.http.toValue

/-- The managed fields of a graph. -/
def Graph.fields (g : Graph) : List (String × Option Value) :=
  [("http", g.httpIfAny)]

theorem Graph.toValue_eq (g : Graph) : g.toValue = record g.fields g.extra := by
  rw [toValue, record, fields, httpIfAny]
  split <;> rfl

theorem sound_dictIfAny {α : Type} {write : α → Value} {r : Dict α}
    (h : ∀ x ∈ r.values, Value.Sound d (write x)) :
    ∀ v ∈ dictIfAny write r, Value.Sound (d + 1) v := by
  rw [dictIfAny]
  split
  · rintro v ⟨⟩
  · exact forall_mem_some (sound_dictValue h)

theorem HttpSection.sound_toValue {s : HttpSection} (h : s.Sound d) :
    Value.Sound (d + 6) s.toValue := by
  rw [toValue_eq]
  refine sound_record h.extra rfl (by decide) ?_
  simp only [fields, List.forall_mem_cons]
  exact ⟨sound_dictIfAny fun r hr => (Router.clean_toValue (h.routers r hr)).sound,
    sound_dictIfAny fun r hr => (Service.clean_toValue (h.services r hr)).sound,
    sound_dictIfAny fun m hm => Middleware.sound_toValue (h.middlewares m hm),
    List.forall_mem_nil _⟩

/-- A sound graph is written as a sound value. -/
theorem Graph.sound_toValue {g : Graph} (h : g.Sound d) : Value.Sound (d + 7) g.toValue := by
  rw [toValue_eq]
  refine sound_record h.extra rfl (by decide) ?_
  rw [fields, List.forall_mem_singleton, httpIfAny]
  split
  · rintro v ⟨⟩
  · exact forall_mem_some (HttpSection.sound_toValue h.http)

theorem HttpSection.sound_of_ofNode? {n : Node} {s : HttpSection} (h : n.Within (d + 6))
    (hread : ofNode? n = some s) : s.Sound d := by
  simp only [ofNode?, Option.bind_eq_bind, Option.bind_eq_some_iff, Option.pure_def,
    Option.some.injEq] at hread
  obtain ⟨fields, hfields, o, ho, routers, hrouters, o', ho', services, hservices, o'', ho'',
    middlewares, hmiddlewares, extra, hextra, rfl⟩ := hread
  have hwithin := within_of_nodeFields? h hfields
  refine ⟨fun r hr => ?_, fun r hr => ?_, fun m hm => ?_, Extra.sound_of_nodeExtra? hwithin hextra⟩
  · obtain ⟨n, hn, hread⟩ := exists_of_mem_nodeDictField? hwithin ho hrouters hr
    exact Router.sound_of_ofNode? hn hread
  · obtain ⟨n, hn, hread⟩ := exists_of_mem_nodeDictField? hwithin ho' hservices hr
    exact Service.sound_of_ofNode? hn hread
  · obtain ⟨n, hn, hread⟩ := exists_of_mem_nodeDictField? hwithin ho'' hmiddlewares hm
    exact Middleware.sound_of_ofNode? hn hread

theorem HttpSection.sound_default : HttpSection.Sound d {} := by
  refine ⟨?_, ?_, ?_, ?_, ?_, ?_⟩ <;> exact List.forall_mem_nil _

/-- Every graph that is read is sound. -/
theorem Graph.sound_of_ofNode? {n : Node} {g : Graph} (h : n.Within (d + 7))
    (hread : ofNode? n = some g) : g.Sound d := by
  simp only [ofNode?, Option.bind_eq_bind, Option.bind_eq_some_iff, Option.pure_def] at hread
  obtain ⟨fields, hfields, o, ho, hread⟩ := hread
  have hwithin := within_of_nodeFields? h hfields
  split at hread
  · simp only [Option.bind_some, Option.bind_eq_some_iff, Option.some.injEq] at hread
    obtain ⟨extra, hextra, rfl⟩ := hread
    exact ⟨HttpSection.sound_default, Extra.sound_of_nodeExtra? hwithin hextra⟩
  · simp only [Option.bind_eq_some_iff, Option.some.injEq] at hread
    obtain ⟨http, hhttp, extra, hextra, rfl⟩ := hread
    have hsection := hwithin _ (mem_of_uniqueField? ho)
    exact ⟨HttpSection.sound_of_ofNode? hsection hhttp, Extra.sound_of_nodeExtra? hwithin hextra⟩

end RouteFleet
