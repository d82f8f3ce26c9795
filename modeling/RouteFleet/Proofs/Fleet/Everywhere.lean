import RouteFleet.Proofs.Fleet.Commute
import RouteFleet.Proofs.Relation

/-! # Forward authentication in all routes

To attach forward authentication leaves each router that refers to it alone, and gives each other one
reference to it at the end (`Router.Attached`). To detach it takes all references to it away and keeps the
others as they stand; a list that becomes empty by it is no longer there, and one that was empty stays
(`Router.Detached`). Nothing else of a graph changes (`Graph.edited_changeForwardAuth`), and to do it again
changes nothing.

A call that succeeds has done so to each listed route, and has written those alone that it has changed. To
call again changes nothing if and only if what was written can be read.

Main statement: `Fleet.setForwardAuth_everywhere`.
-/

namespace RouteFleet

open SharedMiddlewares

/-! ## Routers -/

/-- Whether a router is another to which forward authentication was attached. -/
structure Router.Attached (r r' : Router) : Prop where
  there : r'.hasMiddleware forwardAuthName = true
  kept : r.hasMiddleware forwardAuthName = true → r' = r
  gained : r.hasMiddleware forwardAuthName = false →
    r'.middlewares = some (r.refs ++ [fileRef forwardAuthName])
  rest : { r with middlewares := r'.middlewares } = r'

/-- Whether a router is another from which forward authentication was detached. -/
structure Router.Detached (r r' : Router) : Prop where
  gone : r'.hasMiddleware forwardAuthName = false
  refs : r'.refs = r.refs.filter fun ref => refName ref ≠ forwardAuthName
  emptied : r.refs ≠ [] → r'.refs = [] → r'.middlewares = none
  empty : r.refs = [] → r'.middlewares = r.middlewares
  rest : { r with middlewares := r'.middlewares } = r'

/-- What a change of forward authentication makes of a router. -/
def ForwardAuthChange.Makes : ForwardAuthChange → Router → Router → Prop
  | .attach => Router.Attached
  | .detach => Router.Detached

namespace Router

variable {change : ForwardAuthChange}

theorem attached_withForwardAuth (r : Router) : r.Attached (Fleet.withForwardAuth r) := by
  rw [Fleet.withForwardAuth]
  split
  · rename_i hthere
    exact ⟨hthere, fun _ => rfl, fun hnone => absurd (hnone.symm.trans hthere) Bool.false_ne_true, rfl⟩
  · rename_i hnone
    refine ⟨?_, fun hthere => absurd hthere hnone, fun _ => rfl, rfl⟩
    rw [hasMiddleware, List.any_eq_true]
    refine ⟨fileRef forwardAuthName, List.mem_append_right _ List.mem_cons_self, decide_eq_true ?_⟩
    exact refName_fileRef forwardAuthName

theorem detached_detach (r : Router) : r.Detached (r.detach forwardAuthName) := by
  refine ⟨hasMiddleware_detach, r.refs_detach forwardAuthName, fun hsome hnone => ?_, fun hempty => ?_, ?_⟩
  · -- Something was taken away, for nothing is left of what was there.
    rw [detach]
    split
    · rw [refs_detach] at hnone
      rw [hnone]
      rfl
    · rename_i hkept
      rw [detach, if_neg hkept] at hnone
      exact absurd hnone hsome
  · have hnone : r.hasMiddleware forwardAuthName = false := by rw [hasMiddleware, hempty, List.any_nil]
    rw [detach_eq_self hnone]
  · rw [detach]
    split <;> rfl

theorem makes_edit (change : ForwardAuthChange) (r : Router) : change.Makes r (change.edit r) := by
  cases change with
  | attach => exact r.attached_withForwardAuth
  | detach => exact r.detached_detach

theorem hasMiddleware_edit (change : ForwardAuthChange) (r : Router) :
    (change.edit r).hasMiddleware forwardAuthName = decide (change = .attach) := by
  cases change with
  | attach => exact r.attached_withForwardAuth.there
  | detach => exact r.detached_detach.gone

/-- To do it again changes nothing. -/
theorem edit_edit (change : ForwardAuthChange) (r : Router) : change.edit (change.edit r) = change.edit r :=
  edit_eq_self_iff.mpr (hasMiddleware_edit change r)

end Router

/-! ## Graphs -/

/-- Whether a graph is another but for its routers, each of which comes of the one under its key. -/
structure Graph.Edited (R : Router → Router → Prop) (g g' : Graph) : Prop where
  routers : g.http.routers.Related R g'.http.routers
  rest : { g with http := { g.http with routers := g'.http.routers } } = g'

namespace Graph

variable {change : ForwardAuthChange} {g : Graph}

/-- A change of forward authentication edits each router, and nothing else. -/
theorem edited_changeForwardAuth (change : ForwardAuthChange) (g : Graph) :
    Edited change.Makes g (Fleet.changeForwardAuth change g) := by
  rw [Fleet.changeForwardAuth_eq]
  exact ⟨Dict.related_map_self (Router.makes_edit change) g.http.routers, rfl⟩

theorem hasMiddleware_changeForwardAuth {r : Router}
    (h : r ∈ (Fleet.changeForwardAuth change g).http.routers.values) :
    r.hasMiddleware forwardAuthName = decide (change = .attach) := by
  rw [Fleet.changeForwardAuth_eq] at h
  obtain ⟨r₀, -, rfl⟩ := mem_routers_mapRouters.mp h
  exact r₀.hasMiddleware_edit change

theorem changeForwardAuth_changeForwardAuth (change : ForwardAuthChange) (g : Graph) :
    Fleet.changeForwardAuth change (Fleet.changeForwardAuth change g) = Fleet.changeForwardAuth change g := by
  rw [Fleet.changeForwardAuth_eq, Fleet.changeForwardAuth_eq, mapRouters_mapRouters]
  exact congrArg g.mapRouters (funext fun r => r.edit_edit change)

end Graph

/-! ## Fleets -/

namespace Fleet

variable {change : ForwardAuthChange} {fleet after : Fleet} {rs : List StoredRoute} {n : Nat}

/-- What a change of forward authentication in all routes, of which `n` were written, has done to a fleet
that listed `rs`. -/
structure SetEverywhere (change : ForwardAuthChange) (rs : List StoredRoute) (fleet after : Fleet) (n : Nat) :
    Prop where
  edited : ∀ r ∈ rs, r.graph.Edited change.Makes (changeForwardAuth change r.graph)
  count : n = (changed (changeForwardAuth change) rs).length
  /-- What was changed is written, and each other file is as it was. -/
  rewritten : ∃ entries entries', fleet.store.content = .ok entries ∧ after.store.content = .ok entries' ∧
    Rewritten (changeForwardAuth change) (changed (changeForwardAuth change) rs) entries entries'
  /-- What is listed now was listed before, and is read as it was edited. -/
  reread : ∀ r', Lists after.store r' → ∃ r ∈ rs, r'.id = r.id ∧
    (changeForwardAuth change r.graph).RereadAs r'.graph
  reached : ∀ r', Lists after.store r' → ∀ r ∈ r'.graph.http.routers.values,
    r.hasMiddleware forwardAuthName = decide (change = .attach)
  again : outcome (setForwardAuth change) after = (.ok 0, after) ↔
    ∀ r ∈ changed (changeForwardAuth change) rs, ∃ g, IsStored after.store { id := r.id, graph := g }
  readBack : ∀ r ∈ changed (changeForwardAuth change) rs, r.graph.toValue.allTags Yaml.isKeptTag = true →
    IsStored after.store { id := r.id, graph := changeForwardAuth change r.graph }

theorem sparesTags_changeForwardAuth (change : ForwardAuthChange) : SparesTags (changeForwardAuth change) := by
  rw [funext (changeForwardAuth_eq change)]
  exact ⟨fun hsound => hsound.mapRouters Router.sound_edit,
    fun hsound => Graph.allTags_mapRouters hsound Router.sound_edit _⟩

/-- If all that is written can be read, then all can that is listed. -/
theorem Rewritten.allRead_of_stored {change : Graph → Graph} {entries entries' : Dict Entry}
    {ids : List RouteId} (h : Rewritten change (changed change rs) entries entries')
    (hroot : after.store.root = fleet.store.root)
    (hentries : fleet.store.content = .ok entries) (hentries' : after.store.content = .ok entries')
    (hread : AllRead fleet.store ids)
    (hstored : ∀ r ∈ changed change rs, ∃ g, IsStored after.store { id := r.id, graph := g }) :
    AllRead after.store ids := by
  intro id hid
  by_cases hdone : ∃ r ∈ changed change rs, r.id = id
  · obtain ⟨r, hr, rfl⟩ := hdone
    exact .inr (hstored r hr)
  have hsame : ∀ {found}, after.store.read id.text = .ok found ↔ fleet.store.read id.text = .ok found :=
    Store.read_eq_ok_congr hroot hentries' hentries
      (h.kept _ fun r hr hfile => hdone ⟨r, hr, (RouteId.fileName_inj hfile).symm⟩)
  rcases hread id hid with hnone | ⟨g, bytes, hbytes, hgraph⟩
  · exact .inl (hsame.mpr hnone)
  · exact .inr ⟨g, bytes, hsame.mpr hbytes, hgraph⟩

/-- A call that succeeds on a fleet whose routes can all be read. -/
theorem setEverywhere (hlist : outcome list fleet = (.ok rs, fleet))
    (h : outcome (setForwardAuth change) fleet = (.ok n, after)) : SetEverywhere change rs fleet after n := by
  obtain ⟨-, entries, ids, hentries, hids, hloaded⟩ := isLoaded_of_outcome_list hlist
  have hedit : outcome (editEach (changeForwardAuth change) rs) fleet = (.ok n, after) :=
    (outcome_bind_ok hlist).symm.trans h
  obtain ⟨entries', hentries', hcount, hrewritten⟩ :=
    rewritten_of_editEach hentries (same_of_outcome_list hlist) hedit
  have hroot := root_edit h
  have hlie : ∀ r ∈ changed (changeForwardAuth change) rs, LiesIn fleet.store.root entries r :=
    fun r hr => hloaded.liesIn hentries r (mem_changed_iff.mp hr).1
  have hids' : after.store.list = .ok ids :=
    (hrewritten.list_eq hlie hroot hentries hentries').trans hids
  have hwritten : ∀ r ∈ changed (changeForwardAuth change) rs, ∃ bytes,
      bytesOf r.id.text (changeForwardAuth change r.graph) = .ok bytes ∧
        after.store.read r.id.text = .ok (some bytes) := by
    intro r hr
    obtain ⟨bytes, hwrite, hbytes⟩ := hrewritten.edited r hr
    exact ⟨bytes, hwrite, (Store.read_eq_ok_iff hentries').mpr ⟨hroot ▸ (hlie r hr).1, hbytes⟩⟩
  have hspares := sparesTags_changeForwardAuth change
  have horigin : ∀ r', Lists after.store r' → ∃ r ∈ rs, r'.id = r.id ∧
      (changeForwardAuth change r.graph).RereadAs r'.graph := by
    intro r' hlists
    obtain ⟨r, hr, hid, hreread⟩ := hrewritten.origin hroot hloaded hentries hids hentries' hspares hlists
    exact ⟨r, (hloaded.lists_iff hids).mp hr, hid, hreread⟩
  refine ⟨fun r _ => r.graph.edited_changeForwardAuth change, hcount,
    ⟨entries, entries', hentries, hentries', hrewritten⟩, horigin, fun r' hlists r hr => ?_,
    ⟨fun hagain r hr => ?_, fun hstored => ?_⟩, fun r hr htags => ?_⟩
  · obtain ⟨r₀, -, -, hreread⟩ := horigin r' hlists
    rw [hreread.routers] at hr
    exact Graph.hasMiddleware_changeForwardAuth hr
  · -- A call that succeeds has read all that is listed.
    obtain ⟨rs', next, hall, -⟩ := outcome_bind_eq_ok hagain
    obtain ⟨bytes, -, hbytes⟩ := hwritten r hr
    have hmem := hloaded.sublist.subset (List.mem_map_of_mem (mem_changed_iff.mp hr).1)
    rcases allRead_of_list hids' hall r.id hmem with hnone | hstored
    · exact nomatch hbytes.symm.trans hnone
    · exact hstored
  · have hread := hrewritten.allRead_of_stored hroot hentries hentries' (allRead_of_list hids hlist) hstored
    refine outcome_edit_of_fixed hids' hread fun r' hlists => ?_
    obtain ⟨r, -, -, hreread⟩ := horigin r' hlists
    rw [(steady_changeForwardAuth change).fixed hreread]
    exact Graph.changeForwardAuth_changeForwardAuth change r.graph
  · obtain ⟨bytes, hwrite, hbytes⟩ := hwritten r hr
    have hsound := sound_of_outcome_list hlist r (mem_changed_iff.mp hr).1
    exact ⟨bytes, hbytes,
      graphOf_of_bytesOf (hspares.sound hsound) ((hspares.allTags hsound).trans htags) hwrite⟩

/-- Where all routes can be read and the system refuses no write, a change of forward authentication in all
routes succeeds if and only if the graphs that it changes can be written; and a call that succeeds reaches
each router, and nothing else. -/
theorem setForwardAuth_everywhere (hlist : outcome list fleet = (.ok rs, fleet))
    (hgrants : fleet.store.GrantsWrites) :
    ((∃ n, (outcome (setForwardAuth change) fleet).1 = .ok n) ↔
      ∀ r ∈ changed (changeForwardAuth change) rs, r.graph.isWritable = true) ∧
    ∀ n after, outcome (setForwardAuth change) fleet = (.ok n, after) →
      SetEverywhere change rs fleet after n := by
  refine ⟨?_, fun n after h => setEverywhere hlist h⟩
  obtain ⟨-, entries, ids, hentries, -, -⟩ := isLoaded_of_outcome_list hlist
  obtain ⟨-, -, -, -, hok⟩ := (isEdit_setForwardAuth change).granted hlist hentries hgrants
  rw [hok, writable, List.takeWhile_eq_self_iff]
  exact forall₂_congr fun r _ => by rw [isWritable_changeForwardAuth]

/-- The first call succeeds and writes what cannot be read, so the second one fails. -/
theorem setForwardAuth_everywhere_tlsCommaText : (soleFleet tlsCommaText).store.GrantsWrites ∧
    ∃ rs n after, outcome list (soleFleet tlsCommaText) = (.ok rs, soleFleet tlsCommaText) ∧
      outcome (setForwardAuth .attach) (soleFleet tlsCommaText) = (.ok n, after) ∧
      SetEverywhere .attach rs (soleFleet tlsCommaText) after n ∧
      outcome (setForwardAuth .attach) after ≠ (.ok 0, after) := by
  have hgrants : (soleFleet tlsCommaText).store.GrantsWrites := fun _ => rfl
  have hlost : (outcome list (soleFleet tlsCommaText)).1.toOption.any (fun rs =>
      rs.all (·.graph.isWritable) && rs.any fun r => changeForwardAuth .attach r.graph ≠ r.graph ∧
        Graph.ofText? (changeForwardAuth .attach r.graph).toValue.write = none) = true := by decide +kernel
  obtain ⟨rs, hrs, hboth⟩ := exists_list_of_any hlost
  obtain ⟨hfit, hlost⟩ := Bool.and_eq_true_iff.mp hboth
  obtain ⟨hok, hset⟩ := @setForwardAuth_everywhere .attach (soleFleet tlsCommaText) rs hrs hgrants
  obtain ⟨n, hn⟩ := hok.mpr fun r hr => List.all_eq_true.mp hfit r (mem_changed_iff.mp hr).1
  rcases hrun : outcome (setForwardAuth .attach) (soleFleet tlsCommaText) with ⟨result, after⟩
  rw [hrun] at hn
  obtain rfl : result = .ok n := hn
  refine ⟨hgrants, rs, n, after, hrs, rfl, hset n after hrun, fun hagain => ?_⟩
  obtain ⟨r, hr, hnone⟩ := List.any_eq_true.mp hlost
  obtain ⟨hne, hnone⟩ := of_decide_eq_true hnone
  have hchanged := mem_changed_iff.mpr ⟨hr, hne⟩
  obtain ⟨g, bytes, hread, hgraph⟩ := (hset n after hrun).again.mp hagain r hchanged
  -- What lies there is what was written.
  obtain ⟨entries, entries', -, hentries', hrewritten⟩ := (hset n after hrun).rewritten
  obtain ⟨bytes', hwrite, hfile⟩ := hrewritten.edited r hchanged
  obtain rfl := Entry.file.inj (Option.some.inj
    (((Store.read_eq_ok_iff hentries').mp hread).2.symm.trans hfile))
  rw [(bytesOf_eq_ok_iff.mp hwrite).2, graphOf_eq_ok_iff, ofBytes?_toUTF8, hnone] at hgraph
  cases hgraph

end Fleet

end RouteFleet
