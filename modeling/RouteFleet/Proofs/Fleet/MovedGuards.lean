import Mathlib.Data.List.Infix
import RouteFleet.Proofs.Fleet.Commute
import RouteFleet.Proofs.Graph.Shown

/-! # Shared middlewares of moved routes

A route that is moved to a new identity keeps its references to shared middlewares, unless names get mixed
up (`Graph.keepsGuards_rename_iff`). They do in two ways. A shared name may be made from the old identity: it
is then taken for a name of the route and moves along, away from what is shared. That is so of the four
identities that a shared name begins with (`RouteId.owns_wellKnown_iff`). And a router may come to have the
key of another, which it replaces.

Main statement: `Fleet.guards_migrate`.
-/

namespace RouteFleet

open SharedMiddlewares

/-! ## Shared names -/

/-- The identities that a shared name is, or goes on from with a hyphen. -/
def sharedLeads : List String := ["sys", "sys-redirscheme", "sys-hsts", "sys-forwardauth"]

/-- A shared name is made from an identity if and only if that is one of four. -/
theorem RouteId.owns_wellKnown_iff {id : RouteId} :
    (∃ name ∈ wellKnown, id.Owns name) ↔ id.text ∈ sharedLeads := by
  constructor
  · rintro ⟨name, hname, howns⟩
    -- What a shared name goes on from stands before its only hyphen.
    have hleads : ∀ name ∈ wellKnown, ∀ lead ∈ name.toList.inits, lead ++ ['-'] <+: name.toList →
        lead = "sys".toList := by decide +kernel
    rcases owns_iff.mp howns with rfl | ⟨rest, rfl⟩
    · exact List.mem_cons_of_mem _ hname
    · have hlead := hleads _ hname id.text.toList
        ((List.mem_inits _ _).mpr ⟨"-".toList ++ rest.toList, by simp⟩) ⟨rest.toList, by simp⟩
      rw [String.toList_inj.mp hlead]
      exact List.mem_cons_self
  · intro hmem
    have hall : ∀ text ∈ sharedLeads, ∃ name ∈ wellKnown, (RouteId.mk text).Owns name := by decide +kernel
    exact hall id.text hmem

/-! ## Renamed graphs -/

namespace Graph

variable {old new : RouteId} {tag : Tag} {g g' : Graph}

/-- Whether each router has become one that refers to the same shared middlewares. -/
def KeepsGuards (g : Graph) (old new : RouteId) (g' : Graph) : Prop :=
  ∀ k r, g.http.routers.get? k = some r → ∃ r', g'.http.routers.get? (renameKey old new k) = some r' ∧
    ∀ name ∈ wellKnown, r'.hasMiddleware name = r.hasMiddleware name

/-- Whether no shared name is taken for one of the route, and routers that come to have one key refer to the
same shared middlewares. -/
structure Unmixed (g : Graph) (old new : RouteId) : Prop where
  shared : ∀ name ∈ wellKnown, old.Owns name → g.anyRouterHas name = false
  routers : ∀ k r, g.http.routers.get? k = some r → ∀ k' r', g.http.routers.get? k' = some r' →
    renameKey old new k = renameKey old new k' →
      ∀ name ∈ wellKnown, r.hasMiddleware name = r'.hasMiddleware name

theorem KeepsGuards.congr {g₂ : Graph} (h : g₂.http.routers = g'.http.routers) :
    g.KeepsGuards old new g₂ ↔ g.KeepsGuards old new g' := by
  rw [KeepsGuards, KeepsGuards, h]

/-- Under the key to which a router has gone lies that router, or another that has gone there. -/
theorem exists_get?_routers_rename {k : String} {r : Router} (h : g.http.routers.get? k = some r) :
    ∃ k₀ r₀, g.http.routers.get? k₀ = some r₀ ∧ renameKey old new k₀ = renameKey old new k ∧
      (g.rename old new).http.routers.get? (renameKey old new k) = some (r₀.rename old new) := by
  have hmapped : (g.http.routers.map (Router.rename old new)).get? k = some (r.rename old new) := by
    rw [Dict.get?_map, h, Option.map_some]
  have hthere : (g.rename old new).http.routers.contains (renameKey old new k) = true :=
    Dict.contains_renameKeys (Dict.contains_iff.mpr ⟨_, hmapped⟩)
  obtain ⟨r', hr'⟩ := Dict.contains_iff.mp hthere
  obtain ⟨⟨k₀, r₁⟩, hmem, heq⟩ := List.mem_map.mp (Dict.mem_of_get?_ofList hr')
  obtain ⟨hkey, rfl⟩ := Prod.mk.inj heq
  obtain ⟨⟨k₁, r₀⟩, hmem₀, heq₀⟩ := List.mem_map.mp hmem
  obtain ⟨rfl, rfl⟩ := Prod.mk.inj heq₀
  exact ⟨k₁, r₀, Dict.get?_eq_some_iff.mpr hmem₀, hkey, hr'⟩

/-- References to shared middlewares are kept if and only if no names get mixed up. -/
theorem keepsGuards_rename_iff (hnew : new = RouteId.ofTag old.text tag) :
    g.KeepsGuards old new (g.rename old new) ↔ g.Unmixed old new := by
  have hhas : ∀ name ∈ wellKnown, ∀ r : Router, (r.rename old new).hasMiddleware name = true ↔
      r.hasMiddleware name = true ∧ ¬ old.Owns name := fun name hname r =>
    Router.hasMiddleware_rename_iff hnew (hnew ▸ RouteId.not_owns_ofTag_wellKnown old.text tag name hname)
  constructor
  · intro hkeeps
    refine ⟨fun name hname howns => ?_, fun k r hr k' r' hr' hkey name hname => ?_⟩
    · rw [anyRouterHas, List.any_eq_false]
      intro r hr hr'
      obtain ⟨k, hk⟩ := Dict.mem_values_iff.mp hr
      obtain ⟨r', hk', hsame⟩ := hkeeps k r hk
      obtain ⟨r₀, -, rfl⟩ := exists_router_of_rename (Dict.mem_values_iff.mpr ⟨_, hk'⟩)
      exact ((hhas name hname r₀).mp ((hsame name hname).trans hr')).2 howns
    · obtain ⟨r₁, hk₁, hsame⟩ := hkeeps k r hr
      obtain ⟨r₂, hk₂, hsame'⟩ := hkeeps k' r' hr'
      rw [hkey] at hk₁
      obtain rfl := Option.some.inj (hk₁.symm.trans hk₂)
      exact (hsame name hname).symm.trans (hsame' name hname)
  · intro hunmixed k r hr
    obtain ⟨k₀, r₀, hr₀, hkey, hfound⟩ := exists_get?_routers_rename hr
    refine ⟨r₀.rename old new, hfound, fun name hname => ?_⟩
    rw [← hunmixed.routers k₀ r₀ hr₀ k r hr hkey name hname, Bool.eq_iff_iff, hhas name hname]
    refine and_iff_left_of_imp fun hr₀' howns => ?_
    have hnone := hunmixed.shared name hname howns
    rw [anyRouterHas, List.any_eq_false] at hnone
    exact hnone r₀ (Dict.mem_values_iff.mpr ⟨k₀, hr₀⟩) hr₀'

/-- Names do not get mixed up if the identity is none of four and no router is named after the new one. -/
theorem unmixed_of_fresh (hname : old.text ∉ sharedLeads) (hfresh : ∀ k ∈ g.http.routers.keys, ¬ new.Owns k) :
    g.Unmixed old new := by
  refine ⟨fun name hmem howns => ?_, fun k r hr k' r' hr' hkey name _ => ?_⟩
  · exact absurd (RouteId.owns_wellKnown_iff.mp ⟨name, hmem, howns⟩) hname
  · obtain rfl := Moves.inj (moves_iff.mpr rfl) (moves_iff.mpr hkey) (hfresh k (Dict.mem_keys_iff.mpr ⟨r, hr⟩))
      (hfresh k' (Dict.mem_keys_iff.mpr ⟨r', hr'⟩))
    rw [Option.some.inj (hr.symm.trans hr')]

end Graph

namespace Fleet

variable {fleet last : Fleet} {pairs : List (RouteId × RouteId)} {old new : RouteId}

/-- Where all legacy routes are moved, each lay under its old identity and lies, renamed, under its new one.
It refers to the same shared middlewares, also as it is read back, if and only if no names get mixed up.
None do unless the old identity is one of four, or some router is named after the new one already. -/
theorem guards_migrate (h : outcome migrate fleet = (.ok pairs, last)) (hmem : (old, new) ∈ pairs) :
    ∃ g bytes, Lists fleet.store { id := old, graph := g } ∧
      bytesOf new.text (g.rename old new) = .ok bytes ∧ last.store.read new.text = .ok (some bytes) ∧
      (∀ g', g' = g.rename old new ∨ graphOf new.text bytes = .ok g' →
        (g.KeepsGuards old new g' ↔ g.Unmixed old new)) ∧
      (old.text ∉ sharedLeads → (∀ k ∈ g.http.routers.keys, ¬ new.Owns k) → g.Unmixed old new) := by
  obtain
    ⟨rs, ids, entries, entries', moves, hloaded, hlist, hentries, hentries', hroot, hall, rfl, hmoved⟩ :=
      moved_of_migrate h
  obtain ⟨m, hm, heq⟩ := List.mem_map.mp hmem
  obtain ⟨rfl, rfl⟩ := Prod.mk.inj heq
  obtain ⟨hr, hstored⟩ := stored_of_mem_moves hloaded hall hm
  obtain ⟨⟨tag, hnew⟩, -, -⟩ := hmoved.named m hm
  obtain ⟨bytes, hwrite, hfile⟩ := hmoved.moved m hm
  refine ⟨m.1.graph, bytes, (hloaded.lists_iff hlist).mpr hr, hwrite,
    (Store.read_eq_ok_iff hentries').mpr ⟨hroot ▸ (hmoved.free m hm).1, hfile⟩, ?_, Graph.unmixed_of_fresh⟩
  rintro g' (rfl | hread)
  · exact Graph.keepsGuards_rename_iff hnew
  · have hreread := rereadAs_of_graphOf (hstored.sound.rename m.1.id m.2) hwrite hread
    rw [Graph.KeepsGuards.congr hreread.routers]
    exact Graph.keepsGuards_rename_iff hnew

/-- An object that lies under what shared names begin with, with a reference to forward authentication. -/
def sysText : String :=
  "http:\n  routers:\n    sys-http:\n      rule: x\n      middlewares:\n      - sys-forwardauth@file\n"

/-- A fleet of that object. -/
def sysFleet : Fleet where
  store := { root := "conf", content := .ok (Dict.ofList [("sys.yaml", .file sysText.toUTF8)]) }
  tags := [Tag.ofNat 1]
  compiler := { certResolver := "le", hasher := Hasher.marking, hostIp := none }

/-- It is listed and moved, and nobody is asked any more who may pass. -/
theorem guards_migrate_sysFleet : sysFleet.store.list = .ok [⟨"sys"⟩] ∧
    ∃ last, outcome migrate sysFleet = (.ok [(⟨"sys"⟩, ⟨"sys_00000001"⟩)], last) ∧
      ∃ g bytes, Lists sysFleet.store { id := ⟨"sys"⟩, graph := g } ∧
        g.anyRouterHas forwardAuthName = true ∧
        bytesOf "sys_00000001" (g.rename ⟨"sys"⟩ ⟨"sys_00000001"⟩) = .ok bytes ∧
        last.store.read "sys_00000001" = .ok (some bytes) ∧
        ¬ g.KeepsGuards ⟨"sys"⟩ ⟨"sys_00000001"⟩ (g.rename ⟨"sys"⟩ ⟨"sys_00000001"⟩) := by
  have hids : sysFleet.store.list = .ok [⟨"sys"⟩] := by decide +kernel
  have hmoved : (outcome migrate sysFleet).1.toOption = some [(⟨"sys"⟩, ⟨"sys_00000001"⟩)] := by
    decide +kernel
  have hasks : (outcome list sysFleet).1.toOption.any (·.all fun r =>
      r.graph.anyRouterHas forwardAuthName) = true := by decide +kernel
  rcases hrun : outcome migrate sysFleet with ⟨e | pairs, last⟩
  · rw [hrun] at hmoved
    cases hmoved
  rw [hrun] at hmoved
  obtain rfl := Option.some.inj hmoved
  obtain ⟨g, bytes, hlists, hwrite, hread, hiff, -⟩ := guards_migrate hrun List.mem_cons_self
  obtain ⟨rs, hrs, hall⟩ := exists_list_of_any hasks
  obtain ⟨-, _, ids, -, hlist, hloaded⟩ := isLoaded_of_outcome_list hrs
  have hhas := List.all_eq_true.mp hall _ ((hloaded.lists_iff hlist).mp hlists)
  refine ⟨hids, last, rfl, g, bytes, hlists, hhas, hwrite, hread, fun hkeeps => ?_⟩
  have hunmixed := (hiff _ (.inl rfl)).mp hkeeps
  have howns : (⟨"sys"⟩ : RouteId).Owns forwardAuthName := by decide +kernel
  exact nomatch hhas.symm.trans (hunmixed.shared forwardAuthName (by decide) howns)

end Fleet

end RouteFleet
