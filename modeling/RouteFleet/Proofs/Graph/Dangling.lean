import RouteFleet.Proofs.Graph.Rename

/-! # References that lead somewhere

No reference of a graph dangles if and only if each of its routers leads somewhere
(`Graph.dangling_eq_nil_iff`). That stays so when all that is named after one identity is moved over to
another, unless one of the names that the graph does not define is among it (`Graph.dangling_rename`), and
when the graph is written and read back (`Graph.RereadAs.dangling_eq`).
-/

namespace RouteFleet

/-- Whether each reference of a router leads somewhere: to a service that the graph defines, and to
middlewares that the graph defines or that are among some others. -/
structure Router.LeadsIn (g : Graph) (external : List String) (r : Router) : Prop where
  refs : ∀ ref ∈ r.refs, refName ref ∈ external ∨ g.http.middlewares.contains (refName ref) = true
  service : ∀ service ∈ r.service, g.http.services.contains (refName service) = true

namespace Graph

variable {g g' : Graph} {external : List String}

theorem danglingOf_eq_nil_iff {r : Router} : g.danglingOf external r = [] ↔ r.LeadsIn g external := by
  have hrefs : r.refs.filter (fun ref =>
      !g.http.middlewares.contains (refName ref) && !external.contains (refName ref)) = [] ↔
      ∀ ref ∈ r.refs, refName ref ∈ external ∨ g.http.middlewares.contains (refName ref) = true := by
    rw [List.filter_eq_nil_iff]
    refine forall₂_congr fun ref _ => ?_
    rw [Bool.and_eq_true, Bool.not_eq_true', Bool.not_eq_true', List.contains_eq_mem,
      decide_eq_false_iff_not, ← Bool.not_eq_true, not_and_or, not_not, not_not, or_comm]
  rw [danglingOf, List.append_eq_nil_iff, hrefs]
  cases hservice : r.service with
  | none =>
    constructor
    · rintro ⟨hleads, -⟩
      exact ⟨hleads, fun service hmem => nomatch hservice.symm.trans hmem⟩
    · exact fun h => ⟨h.refs, rfl⟩
  | some service =>
    have hdefined : (if g.http.services.contains (refName service) then [] else [service]) = [] ↔
        g.http.services.contains (refName service) = true := by
      split <;> simp [*]
    show _ ∧ (if g.http.services.contains (refName service) then [] else [service]) = [] ↔ _
    rw [hdefined]
    constructor
    · rintro ⟨hleads, hthere⟩
      refine ⟨hleads, fun service' hmem => ?_⟩
      obtain rfl := Option.some.inj (hservice.symm.trans hmem)
      exact hthere
    · exact fun h => ⟨h.refs, h.service service hservice⟩

theorem dangling_eq_nil_iff :
    g.dangling external = [] ↔ ∀ r ∈ g.http.routers.values, r.LeadsIn g external := by
  rw [dangling, List.flatMap_eq_nil_iff]
  exact forall₂_congr fun r _ => danglingOf_eq_nil_iff

/-- What leads somewhere still does so after a renaming that leaves the names alone that the graph does
not define. -/
theorem dangling_rename {old new : RouteId} {tag : Tag} (hnew : new = RouteId.ofTag old.text tag)
    (hexternal : ∀ name ∈ external, renameKey old new name = name) (h : g.dangling external = []) :
    (g.rename old new).dangling external = [] := by
  rw [dangling_eq_nil_iff] at h ⊢
  intro r hr
  obtain ⟨r₀, hr₀, rfl⟩ := exists_router_of_rename hr
  constructor
  · intro ref href
    rw [Router.refs_rename] at href
    obtain ⟨ref₀, href₀, rfl⟩ := List.mem_map.mp href
    rw [refName_renameRef hnew]
    rcases (h r₀ hr₀).refs ref₀ href₀ with hshared | hown
    · exact .inl ((hexternal _ hshared).symm ▸ hshared)
    · exact .inr (Dict.contains_renameKeys hown)
  · intro service hservice
    obtain ⟨service₀, hservice₀, rfl⟩ := Option.map_eq_some_iff.mp hservice
    rw [refName_renameRef hnew]
    exact Dict.contains_renameKeys ((h r₀ hr₀).service service₀ hservice₀)

/-- What dangles in a graph dangles in what it is read back as. -/
theorem RereadAs.dangling_eq (h : g.RereadAs g') (external : List String) :
    g'.dangling external = g.dangling external := by
  unfold dangling danglingOf
  simp only [h.routers, h.services, h.middlewares]

end Graph

end RouteFleet
