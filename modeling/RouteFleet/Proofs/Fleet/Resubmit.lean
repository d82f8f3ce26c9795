import RouteFleet.Proofs.Fleet.Visible
import RouteFleet.Proofs.Graph.Managed
import RouteFleet.Proofs.Route.Shown

/-! # Storing again what is shown

A form is filled with what is shown of a stored route, and what it sends is checked again. What was added
or replaced can always be shown, and what is shown is valid again unless a header has grown too long
(`Fleet.describe_stored`): its value is checked before the host's own address is filled in, and shown
after.
-/

namespace RouteFleet

namespace Fleet

/-! ## What was compiled -/

section Compiled

variable {fleet after : Fleet} {route : Route} {r : StoredRoute}

theorem outcome_compile_eq_ok {id : RouteId} {previous : Option Graph} {g : Graph}
    (h : outcome (compile id route previous) fleet = (.ok g, after)) :
    fleet.compiler.recompile id route previous = .ok g := by
  rw [outcome_compile] at h
  cases hg : fleet.compiler.recompile id route previous with
  | error e =>
    rw [hg] at h
    exact nomatch (Prod.mk.inj h).1
  | ok g' =>
    rw [hg] at h
    exact congrArg Except.ok (Except.ok.inj (Prod.mk.inj h).1)

theorem keeps_nextId_compiler (current : RouteId) (name : String) :
    Keeps Fleet.compiler (nextId current name) := by
  rw [nextId]
  split
  · exact Keeps.pure _
  · exact (keeps_checkName _ _ _).bind fun _ _ => rfl

theorem maintains_replace_eq (current : RouteId) (r : StoredRoute) :
    Maintains (fun _ => True) (replace current r) fun r' => r' = r := by
  refine (Maintains.any (save r.id.text r.graph)).bind fun _ _ => ?_
  split
  · exact (Maintains.any (discard (remove current))).bind fun _ _ => Maintains.pure rfl
  · exact Maintains.pure rfl

/-- What is planned for a new route is the route as it is compiled. -/
theorem recompile_of_planAdd (h : outcome (planAdd route) fleet = (.ok r, after)) :
    route.Valid ∧ ∃ previous, fleet.compiler.recompile r.id route previous = .ok r.graph := by
  obtain ⟨_, mid₁, hcheck, hrest⟩ := outcome_bind_eq_ok h
  obtain ⟨_, mid₂, hname, hrest⟩ := outcome_bind_eq_ok hrest
  obtain ⟨id, mid₃, hid, hrest⟩ := outcome_bind_eq_ok hrest
  obtain ⟨g, mid₄, hgraph, hlast⟩ := outcome_bind_eq_ok hrest
  obtain ⟨⟨⟩, -⟩ := Prod.mk.inj hlast
  obtain rfl := (keeps_check _ route).eq_of_outcome hcheck
  obtain rfl := (keeps_checkName _ _ _).eq_of_outcome hname
  have hcompiled := outcome_compile_eq_ok hgraph
  rw [(Prod.mk.inj hid).2.symm] at hcompiled
  exact ⟨valid_of_check hcheck, none, hcompiled⟩

/-- What is planned instead of a route is the new route as it is compiled. -/
theorem recompile_of_planUpdate {current : RouteId}
    (h : outcome (planUpdate route current) fleet = (.ok r, after)) :
    route.Valid ∧ ∃ previous, fleet.compiler.recompile r.id route previous = .ok r.graph := by
  obtain ⟨_, mid₁, hcheck, hrest⟩ := outcome_bind_eq_ok h
  obtain rfl := (keeps_check _ route).eq_of_outcome hcheck
  obtain ⟨found, mid₂, hfound, hrest⟩ := outcome_bind_eq_ok hrest
  obtain rfl := (keeps_load _ current).eq_of_outcome hfound
  cases found with
  | none => cases hrest
  | some previous =>
    obtain ⟨id, mid₃, hid, hrest⟩ := outcome_bind_eq_ok hrest
    obtain ⟨g, mid₄, hgraph, hlast⟩ := outcome_bind_eq_ok hrest
    obtain ⟨⟨⟩, -⟩ := Prod.mk.inj hlast
    have hcompiled := outcome_compile_eq_ok hgraph
    rw [(keeps_nextId_compiler current route.name).view_eq hid] at hcompiled
    exact ⟨valid_of_check hcheck, some previous, hcompiled⟩

theorem recompile_of_add (h : outcome (add route) fleet = (.ok r, after)) :
    route.Valid ∧ ∃ previous, fleet.compiler.recompile r.id route previous = .ok r.graph := by
  rw [add_eq] at h
  obtain ⟨planned, mid, hplan, hreplace⟩ := outcome_bind_eq_ok h
  have hsame := (maintains_replace_eq planned.id planned mid trivial).2 r (congrArg Prod.fst hreplace)
  exact hsame ▸ recompile_of_planAdd hplan

theorem recompile_of_update (h : outcome (update route) fleet = (.ok r, after)) :
    route.Valid ∧ ∃ previous, fleet.compiler.recompile r.id route previous = .ok r.graph := by
  cases hcurrent : route.id with
  | none =>
    rw [update, hcurrent] at h
    cases h
  | some current =>
    rw [update_eq hcurrent] at h
    obtain ⟨planned, mid, hplan, hreplace⟩ := outcome_bind_eq_ok h
    have hsame := (maintains_replace_eq current planned mid trivial).2 r (congrArg Prod.fst hreplace)
    exact hsame ▸ recompile_of_planUpdate hplan

end Compiled

/-! ## What is shown -/

/-- What is shown of a route that was compiled is valid again if and only if no header has grown too
long. -/
theorem describe_of_recompile {c : Compiler} (h : c.IsSane) {route : Route} {r : StoredRoute}
    (hvalid : route.Valid) (hname : r.id.name = route.name) {previous : Option Graph}
    (hgraph : c.recompile r.id route previous = .ok r.graph) : ∃ shown, r.describe = .ok shown ∧
      (shown.validate.isValid = true ↔ ∀ name e, route.lastHeader? name = some e →
        (c.resolveValue e.value).toList.length ≤ 128) := by
  obtain ⟨users, husers, hmade⟩ := Compiler.recompile_eq_ok_iff.mp hgraph
  have hshown := Compiler.showsHeaders_entries h.hostIp_ne_empty hvalid
  refine ⟨_, (congrArg (Graph.project · r.id) hmade).trans
    (Compiler.project_graphOf c route r.id users hvalid), ?_⟩
  rw [Route.isValid_validate_iff]
  exact Compiler.valid_shown_iff h hvalid hname husers hshown _

/-- What is added or replaced can be shown, and what is shown is valid again if and only if the last
header of each name is not too long once the host's own address is filled in. That is so where the
address is not longer than what stands for it. -/
theorem describe_stored {fleet : Fleet} (hsane : fleet.compiler.IsSane) {route : Route} {r : StoredRoute}
    {after : Fleet} (h : outcome (add route) fleet = (.ok r, after) ∨
      outcome (update route) fleet = (.ok r, after)) : ∃ shown, r.describe = .ok shown ∧
        (shown.validate.isValid = true ↔ ∀ name e, route.lastHeader? name = some e →
          (fleet.compiler.resolveValue e.value).toList.length ≤ 128) ∧
        ((∀ address, fleet.compiler.hostIp = some address →
          address.toList.length ≤ Compiler.addressToken.toList.length) →
            shown.validate.isValid = true) := by
  obtain ⟨hvalid, hname, previous, hgraph⟩ : route.Valid ∧ r.id.name = route.name ∧ ∃ previous,
      fleet.compiler.recompile r.id route previous = .ok r.graph := by
    rcases h with h | h
    · have hfiled := (maintains_add_isFiled _ route fleet rfl).2 r (congrArg Prod.fst h)
      obtain ⟨hvalid, hgraph⟩ := recompile_of_add h
      exact ⟨hvalid, hfiled.1.name_eq, hgraph⟩
    · have hfiled := (maintains_update_isFiled _ route fleet rfl).2 r (congrArg Prod.fst h)
      obtain ⟨hvalid, hgraph⟩ := recompile_of_update h
      exact ⟨hvalid, hfiled.name_eq, hgraph⟩
  obtain ⟨shown, hshown, hagain⟩ := describe_of_recompile hsane hvalid hname hgraph
  refine ⟨shown, hshown, hagain, fun hshort => hagain.mpr fun name e he => ?_⟩
  obtain ⟨hactive, -⟩ := Route.lastHeader?_spec he
  have hvalue := (hvalid.activeHeader hactive).2
  simp only [Rule.isHeaderValue, Rule.within, Bool.and_eq_true, decide_eq_true_eq] at hvalue
  exact (Compiler.length_resolveValue_le hshort e.value).trans hvalue.1.2

/-! ## A header that grows -/

/-- A valid route with a header that names the host's own address many times. -/
def manyAddresses : Route where
  name := "blog"
  domain := "blog.example.com"
  backend := { url := "http://10.0.0.5:8080" }
  headers := [{ name := "X-Ips", value := String.join (List.replicate 14 Compiler.addressToken) }]

/-- A fleet on a host with a long address, whose folder is empty. -/
def longAddressFleet : Fleet :=
  start "conf" {} [Tag.ofNat 1]
    { certResolver := "le", hasher := fun _ => .ok "hash", hostIp := some "192.168.100.200" }

theorem isSane_longAddressFleet : longAddressFleet.compiler.IsSane where
  hash := by
    rintro password _ ⟨⟩
    decide
  address := by
    rintro _ ⟨⟩
    decide

/-- The route is added, and what is then shown of it is not valid. -/
theorem describe_stored_manyAddresses : longAddressFleet.compiler.IsSane ∧
    manyAddresses.validate.isValid = true ∧
    ∃ r after shown, outcome (add manyAddresses) longAddressFleet = (.ok r, after) ∧
      r.describe = .ok shown ∧ shown.validate.isValid = false := by
  refine ⟨isSane_longAddressFleet, by decide +kernel, ?_⟩
  have hadded : (outcome (add manyAddresses) longAddressFleet).1.toOption.map (·.id) =
      some ⟨"blog_00000001"⟩ := by decide +kernel
  rcases houtcome : outcome (add manyAddresses) longAddressFleet with ⟨e | r, after⟩
  · rw [houtcome] at hadded
    exact nomatch hadded
  · obtain ⟨shown, hshown, hagain, -⟩ := describe_stored isSane_longAddressFleet (.inl houtcome)
    refine ⟨r, after, shown, rfl, hshown, ?_⟩
    rw [Bool.eq_false_iff]
    intro hvalid
    have hlast : manyAddresses.lastHeader? "X-Ips" = some
        { name := "X-Ips", value := String.join (List.replicate 14 Compiler.addressToken) } := by
      decide +kernel
    exact absurd (hagain.mp hvalid "X-Ips" _ hlast) (by decide +kernel)

end Fleet

end RouteFleet
