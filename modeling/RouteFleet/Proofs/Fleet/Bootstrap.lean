import RouteFleet.Fleet.Bootstrap
import RouteFleet.Proofs.Fleet.Descent
import RouteFleet.Proofs.Fleet.Shared

/-! # Fleets in line with their settings

A fleet is in line with settings if its shared object is what the settings make it, and each route that is
listed has a tag, is pointed at the certificate resolver, and does not refer to forward authentication
where there is nobody to ask (`Fleet.InLine`). Bootstrapping that succeeds brings a fleet in line, since
what one stage has reached the later ones leave (`Fleet.descends_bootstrap`), and in a fleet that is in line
it changes nothing (`Fleet.bootstrap_of_inLine`).

Main statement: `Fleet.bootstrap_converges`, bootstrapping again changes nothing, and it succeeds again if
and only if all that was written can be read. That is so where all tags are kept.
-/

namespace RouteFleet

namespace Fleet

open SharedMiddlewares

/-! ## Stages in turn -/

section Stages

variable {stage : FleetM (List Milestone)} {rest : List (FleetM (List Milestone))}
variable {fleet mid after : Fleet} {reached : List Milestone}

theorem inTurn_cons_ok (h : outcome stage fleet = (.ok reached, mid)) : inTurn (stage :: rest) fleet =
    ((reached ++ (inTurn rest mid).1.1, (inTurn rest mid).1.2), (inTurn rest mid).2) := by
  have hstage : stage fleet = (.ok reached, mid) := h
  rw [inTurn, hstage]

theorem inTurn_cons_error {e : FleetError} (h : outcome stage fleet = (.error e, mid)) :
    inTurn (stage :: rest) fleet = (([], .error e), mid) := by
  have hstage : stage fleet = (.error e, mid) := h
  rw [inTurn, hstage]

/-- Stages that succeed in turn succeed one by one. -/
theorem inTurn_cons_eq_ok (h : inTurn (stage :: rest) fleet = ((reached, .ok ()), after)) :
    ∃ first more mid, outcome stage fleet = (.ok first, mid) ∧
      inTurn rest mid = ((more, .ok ()), after) ∧ reached = first ++ more := by
  rcases hstage : outcome stage fleet with ⟨e | first, mid⟩
  · rw [inTurn_cons_error hstage] at h
    exact nomatch h
  · rw [inTurn_cons_ok hstage] at h
    rcases hrest : inTurn rest mid with ⟨⟨more, result⟩, last⟩
    rw [hrest] at h
    obtain ⟨hboth, rfl⟩ := Prod.mk.inj h
    obtain ⟨rfl, rfl⟩ := Prod.mk.inj hboth
    exact ⟨first, more, mid, rfl, hrest, rfl⟩

end Stages

/-- What each of some stages preserves they do in turn. -/
theorem preserves_inTurn {I : Store → Prop} {stages : List (FleetM (List Milestone))}
    (h : ∀ stage ∈ stages, Preserves I stage) {fleet : Fleet} (hI : I fleet.store) :
    I (inTurn stages fleet).2.store := by
  induction stages generalizing fleet with
  | nil => exact hI
  | cons stage rest ih =>
    rw [List.forall_mem_cons] at h
    have hmid := h.1 fleet hI
    rcases hstage : outcome stage fleet with ⟨e | reached, mid⟩
    · rw [hstage] at hmid
      rw [inTurn_cons_error hstage]
      exact hmid
    · rw [hstage] at hmid
      rw [inTurn_cons_ok hstage]
      exact ih h.2 hmid

/-- Bootstrapping calls nothing but what the operations on a fleet call. -/
theorem Robust.bootstrap {I : Store → Prop} (h : Robust I) (s : Settings) {fleet : Fleet}
    (hI : I fleet.store) : I (bootstrap s fleet).2.store := by
  have hpure : ∀ reached : List Milestone, Preserves I (pure reached : FleetM (List Milestone)) :=
    fun reached => Preserves.of_keeps (Keeps.pure reached)
  refine preserves_inTurn (fun stage hstage => ?_) hI
  simp only [bootstrapStages, List.mem_append, List.mem_cons, List.not_mem_nil, or_false] at hstage
  rcases hstage with (rfl | rfl | rfl) | hlast
  · exact (h.perform (.writeShared s.sharedMiddlewares)).bind fun _ => hpure _
  · exact h.guards.migrate.preserves.bind fun _ => hpure _
  · exact (h.guards.setCertResolver s.certResolver).preserves.bind fun _ => hpure _
  · split at hlast
    · exact absurd hlast List.not_mem_nil
    · obtain rfl := List.mem_singleton.mp hlast
      exact (h.guards.edit _).preserves.bind fun _ => hpure _

/-- Bootstrapping that succeeds succeeds at each stage. -/
theorem bootstrap_eq_ok {s : Settings} {fleet after : Fleet} {reached : List Milestone}
    (h : bootstrap s fleet = ((reached, .ok ()), after)) : ∃ written moved resolved pairs count,
      outcome (writeShared s.sharedMiddlewares) fleet = (.ok (), written) ∧
      outcome migrate written = (.ok pairs, moved) ∧
      outcome (setCertResolver s.certResolver) moved = (.ok count, resolved) ∧
      (if s.authEndpoint.isSome then after = resolved
        else ∃ count, outcome (setForwardAuth .detach) resolved = (.ok count, after)) ∧
      ∀ p ∈ pairs, .migrated p.1 p.2 ∈ reached := by
  rw [bootstrap, bootstrapStages] at h
  obtain ⟨_, _, _, hfirst, h, rfl⟩ := inTurn_cons_eq_ok h
  obtain ⟨_, written, hwrite, hpure⟩ := outcome_bind_eq_ok hfirst
  obtain ⟨⟨⟩, rfl⟩ := Prod.mk.inj hpure
  obtain ⟨_, _, _, hsecond, h, rfl⟩ := inTurn_cons_eq_ok h
  obtain ⟨pairs, moved, hmove, hpure⟩ := outcome_bind_eq_ok hsecond
  obtain ⟨⟨⟩, rfl⟩ := Prod.mk.inj hpure
  obtain ⟨_, _, _, hthird, h, rfl⟩ := inTurn_cons_eq_ok h
  obtain ⟨count, resolved, hresolve, hpure⟩ := outcome_bind_eq_ok hthird
  obtain ⟨⟨⟩, rfl⟩ := Prod.mk.inj hpure
  refine ⟨written, moved, resolved, pairs, count, hwrite, hmove, hresolve, ?_, fun p hp => ?_⟩
  · cases hauth : s.authEndpoint.isSome with
    | true =>
      rw [hauth] at h
      obtain ⟨-, rfl⟩ := Prod.mk.inj h
      rfl
    | false =>
      rw [hauth] at h
      obtain ⟨_, _, _, hfourth, h, -⟩ := inTurn_cons_eq_ok h
      obtain ⟨-, rfl⟩ := Prod.mk.inj h
      obtain ⟨count', last, hdetach, hpure⟩ := outcome_bind_eq_ok hfourth
      obtain ⟨-, rfl⟩ := Prod.mk.inj hpure
      exact ⟨count', hdetach⟩
  · exact List.mem_append_right _ (List.mem_append_left _ (List.mem_map_of_mem hp))

/-! ## Being in line -/

/-- Whether a route is as settings want each route to be. -/
structure IsAligned (s : Settings) (r : StoredRoute) : Prop where
  twoParts : r.id.isLegacy = false
  resolved : r.graph.IsResolvedBy s.certResolver
  detached : s.authEndpoint = none → r.graph.anyRouterHas forwardAuthName = false

/-- Whether a store is in line with settings. -/
structure InLine (s : Settings) (store : Store) : Prop where
  shared : ∃ bytes, bytesOf objectKey s.sharedMiddlewares.graph = .ok bytes ∧
    store.read objectKey = .ok (some bytes)
  aligned : ∀ r, Lists store r → IsAligned s r

/-- Being in line depends on where the folder is and on what lies in it. -/
theorem InLine.of_content {s : Settings} {a b : Store} {entries : Dict Entry} (hroot : b.root = a.root)
    (ha : a.content = .ok entries) (hb : b.content = .ok entries) (h : InLine s a) : InLine s b := by
  obtain ⟨⟨bytes, hbytes, hread⟩, haligned⟩ := h
  exact ⟨⟨bytes, hbytes, (Store.read_eq_ok_congr hroot.symm ha hb rfl).mp hread⟩, fun r hr =>
    haligned r (hr.of_content hroot.symm hb ha)⟩

/-! ## The shared object -/

section WritingShared

variable {fleet after : Fleet} {shared : SharedMiddlewares} {bytes : ByteArray}

theorem holdsAt_writeShared (h : outcome (writeShared shared) fleet = (.ok (), after)) :
    Store.IsReachable fleet.store.root objectKey ∧ ∃ bytes, bytesOf objectKey shared.graph = .ok bytes ∧
      after.store.HoldsAt RouteId.shared (some (.file bytes)) := by
  obtain ⟨entries, bytes, -, hreach, hbytes, rfl⟩ := outcome_save_eq_ok h
  exact ⟨hreach, bytes, hbytes, _, rfl, by rw [Dict.get?_insert]; exact if_pos rfl⟩

theorem maintains_writeShared (shared : SharedMiddlewares) :
    Maintains Store.HasPlainNames (writeShared shared) fun _ => True :=
  @Guards.save _ _ robust_plainNames.guards RouteId.shared trivial shared.graph

/-- No route is listed that was not before the shared object was written. -/
theorem Lists.of_writeShared (hplain : fleet.store.HasPlainNames)
    (h : outcome (writeShared shared) fleet = (.ok (), after)) {r : StoredRoute}
    (hr : Lists after.store r) : Lists fleet.store r := by
  have hplain' := (maintains_writeShared shared).of_outcome hplain h
  obtain ⟨entries, bytes, hentries, hreach, -, rfl⟩ := outcome_save_eq_ok h
  have hroot := fleet.store.afterWrite.root_withEntries
    (entries.insert RouteId.shared.fileName (.file bytes))
  have hafter := Store.content_withEntries fleet.store.afterWrite
    (entries.insert RouteId.shared.fileName (.file bytes))
  refine (hr.of_insert (hroot.trans fleet.store.root_afterWrite) hentries hafter hreach.1).resolve_left ?_
  rintro ⟨hid, -⟩
  have hmem := hr.mem (Store.list_eq hafter)
  rw [hid] at hmem
  exact Store.notMem_list hplain' (Store.list_eq hafter) RouteId.isReserved_objectKey hmem

/-- Writing the shared object as it is changes nothing in the folder. -/
theorem outcome_writeShared_again (hbytes : bytesOf objectKey shared.graph = .ok bytes)
    (h : fleet.store.read objectKey = .ok (some bytes)) :
    ∃ result store, outcome (writeShared shared) fleet = (result, { fleet with store := store }) ∧
      store.root = fleet.store.root ∧ store.content = fleet.store.content ∧
        (fleet.store.refusals.writes 0 = false → result = .ok ()) := by
  obtain ⟨entries, hentries⟩ := Store.exists_entries_of_read h
  obtain ⟨hreach, hfile⟩ := (Store.read_eq_ok_iff hentries).mp h
  have hsave : outcome (writeShared shared) fleet =
      ((fleet.store.write objectKey bytes).1.mapError .store,
        { fleet with store := (fleet.store.write objectKey bytes).2 }) := by
    rcases outcome_save_cases objectKey shared.graph fleet with ⟨cause, herror, -⟩ | ⟨bytes', hsame, hsave⟩
    · exact nomatch herror.symm.trans hbytes
    · obtain rfl := Except.ok.inj (hsame.symm.trans hbytes)
      exact hsave
  have hnotFolder : entries.get? (Store.fileName objectKey) ≠ some .folder := fun hfolder =>
    nomatch hfile.symm.trans hfolder
  refine ⟨_, _, hsave, fleet.store.root_write objectKey bytes, ?_, fun hgranted => ?_⟩
  all_goals rw [Store.write_eq bytes hentries hreach hnotFolder]
  · split
    · rfl
    · exact (congrArg Except.ok (Dict.insert_of_get?_eq_some hfile)).trans hentries.symm
  · rw [hgranted]
    rfl

end WritingShared

/-! ## One route through all stages -/

/-- Whether no shared name is an identity or goes on from it with a hyphen. -/
def SparesShared (id : RouteId) : Prop :=
  ∀ name ∈ wellKnown, name ≠ id.text ∧ Text.beginsWith (id.text ++ "-") name = false

/-- Whether a route is another that was brought in line with settings, with moves among some pairs of
identities. -/
structure IsBrought (s : Settings) (pairs : List (RouteId × RouteId)) (r r' : StoredRoute) : Prop where
  aligned : IsAligned s r'
  /-- If no reference dangled, none does. -/
  whole : r.graph.dangling wellKnown = [] → (∀ p ∈ pairs, SparesShared p.1) →
    r'.graph.dangling s.sharedMiddlewares.names = []

theorem sparesTags_pointAt (name : String) : SparesTags (pointAt name) where
  sound h := h.mapRouters (Graph.sound_withCertResolver name)
  allTags h := Graph.allTags_mapRouters h (Graph.sound_withCertResolver name) _

theorem sparesTags_detach : SparesTags (changeForwardAuth .detach) where
  sound h := h.mapRouters (Graph.sound_detach forwardAuthName)
  allTags h := Graph.allTags_mapRouters h (Graph.sound_detach forwardAuthName) _

theorem dangling_of_isMoved {pairs : List (RouteId × RouteId)} {r r' : StoredRoute}
    (h : r' = r ∨ IsMoved pairs r r') (hwhole : r.graph.dangling wellKnown = [])
    (hpairs : ∀ p ∈ pairs, SparesShared p.1) : r'.graph.dangling wellKnown = [] := by
  rcases h with rfl | ⟨hpair, ⟨tag, hnew⟩, hreread⟩
  · exact hwhole
  · rw [hreread.dangling_eq]
    refine Graph.dangling_rename hnew (fun name hname => ?_) hwhole
    obtain ⟨hne, hlead⟩ := hpairs _ hpair name hname
    exact renameKey_eq_self hne hlead

theorem names_sharedMiddlewares (s : Settings) :
    s.sharedMiddlewares.names = if s.authEndpoint.isSome then wellKnown else [redirect, hsts] := by
  rw [names, Settings.sharedMiddlewares]
  cases s.authEndpoint with
  | none => rfl
  | some endpoint => rfl

section Descending

variable {s : Settings} {fleet written moved resolved after : Fleet} {pairs : List (RouteId × RouteId)}
variable {count : Nat}

theorem descends_setCertResolver {name : String}
    (h : outcome (setCertResolver name) fleet = (.ok count, after)) :
    Descends (fun r r' => r'.id = r.id ∧ (pointAt name r.graph).RereadAs r'.graph) fleet.store
      after.store := by
  obtain ⟨_, mid, hedit, hmodify⟩ := outcome_bind_eq_ok h
  have hstore : mid.store = after.store := congrArg (fun x => x.2.store) hmodify
  exact hstore ▸ descends_edit (sparesTags_pointAt name) hedit

/-- Each route that is listed in the end was brought in line. -/
theorem descends_bootstrap (hmove : outcome migrate written = (.ok pairs, moved))
    (hresolve : outcome (setCertResolver s.certResolver) moved = (.ok count, resolved))
    (hlast : if s.authEndpoint.isSome then after = resolved
      else ∃ count, outcome (setForwardAuth .detach) resolved = (.ok count, after)) :
    Descends (IsBrought s pairs) written.store after.store := by
  have hresolved := (descends_migrate hmove).trans (descends_setCertResolver hresolve)
  have hnames := names_sharedMiddlewares s
  cases hauth : s.authEndpoint.isSome with
  | true =>
    rw [hauth, if_pos rfl] at hlast hnames
    subst hlast
    refine hresolved.mono ?_
    rintro r r₂ ⟨r₁, ⟨htwoParts, hmoved⟩, hid, hreread⟩
    refine ⟨⟨hid ▸ htwoParts, hreread.isResolvedBy (Graph.isResolvedBy_pointAt _ _), fun hnone => ?_⟩,
      fun hwhole hpairs => ?_⟩
    · rw [hnone] at hauth
      exact nomatch hauth
    · rw [hnames, hreread.dangling_eq]
      exact Graph.dangling_pointAt (dangling_of_isMoved hmoved hwhole hpairs)
  | false =>
    rw [hauth, if_neg Bool.false_ne_true] at hlast hnames
    obtain ⟨_, hdetach⟩ := hlast
    refine (hresolved.trans (descends_edit sparesTags_detach hdetach)).mono ?_
    rintro r r₃ ⟨r₂, ⟨r₁, ⟨htwoParts, hmoved⟩, hid, hreread⟩, hid', hreread'⟩
    have hresolvedBy := hreread.isResolvedBy (Graph.isResolvedBy_pointAt s.certResolver r₁.graph)
    refine ⟨⟨hid' ▸ hid ▸ htwoParts, hreread'.isResolvedBy hresolvedBy.detach, fun _ => ?_⟩,
      fun hwhole hpairs => ?_⟩
    · rw [hreread'.anyRouterHas_eq]
      exact Graph.anyRouterHas_detach _
    · have hleads : ∀ name ∈ wellKnown, name ≠ forwardAuthName → name ∈ [redirect, hsts] := by decide
      rw [hnames, hreread'.dangling_eq]
      refine Graph.dangling_detach hleads ?_
      rw [hreread.dangling_eq]
      exact Graph.dangling_pointAt (dangling_of_isMoved hmoved hwhole hpairs)

end Descending

/-! ## In line already -/

/-- What bootstrapping reaches in a fleet that is in line: no route is moved, and none is rewritten. -/
def quiet (s : Settings) : List Milestone :=
  [.sharedWritten, .certResolverSet s.certResolver 0] ++
    if s.authEndpoint.isSome then [] else [.forwardAuthDisabled 0]

section Quiet

variable {s : Settings} {fleet : Fleet} {ids : List RouteId}

/-- The stages after the first reach nothing where all is in line and can be read. -/
theorem inTurn_of_aligned (hlist : fleet.store.list = .ok ids) (hread : AllRead fleet.store ids)
    (haligned : ∀ r, Lists fleet.store r → IsAligned s r) : ∃ compiler,
      inTurn (bootstrapStages s).tail fleet =
        (((quiet s).tail, .ok ()), { fleet with compiler := compiler }) := by
  have hmigrate : outcome migrate fleet = (.ok [], fleet) := by
    rw [outcome_migrate_iff hlist fun r hid hr => (haligned r ⟨⟨ids, hlist, hid⟩, hr⟩).twoParts,
      not_someUnread_iff]
    exact hread
  have hpoint : outcome (edit (pointAt s.certResolver)) fleet = (.ok 0, fleet) :=
    outcome_edit_of_fixed hlist hread fun r hr => Graph.pointAt_eq_self (haligned r hr).resolved
  have hresolve : outcome (setCertResolver s.certResolver) fleet =
      (.ok 0, { fleet with compiler := { fleet.compiler with certResolver := s.certResolver } }) := by
    rw [outcome_setCertResolver, hpoint]
  have hsecond : outcome (do return (← migrate).map fun p => Milestone.migrated p.1 p.2) fleet =
      (.ok [], fleet) := outcome_bind_ok hmigrate
  have hthird : outcome (do return [Milestone.certResolverSet s.certResolver
      (← setCertResolver s.certResolver)]) fleet = (.ok [.certResolverSet s.certResolver 0], _) :=
    outcome_bind_ok hresolve
  refine ⟨{ fleet.compiler with certResolver := s.certResolver }, ?_⟩
  simp only [bootstrapStages, List.cons_append, List.nil_append, List.tail_cons,
    inTurn_cons_ok hsecond, inTurn_cons_ok hthird]
  cases hauth : s.authEndpoint with
  | some endpoint =>
    rw [quiet, hauth]
    rfl
  | none =>
    have hdetach : outcome (setForwardAuth .detach)
        { fleet with compiler := { fleet.compiler with certResolver := s.certResolver } } = (.ok 0, _) :=
      outcome_edit_of_fixed hlist hread fun r hr => Graph.detach_eq_self ((haligned r hr).detached hauth)
    have hfourth : outcome (do return [Milestone.forwardAuthDisabled (← setForwardAuth .detach)])
        { fleet with compiler := { fleet.compiler with certResolver := s.certResolver } } =
        (.ok [.forwardAuthDisabled 0], _) := outcome_bind_ok hdetach
    have hlast := @inTurn_cons_ok _ [] _ _ _ hfourth
    rw [quiet, hauth]
    simp only [Option.isSome_none, Bool.false_eq_true, if_false, hlast]
    rfl

/-- The stages after the first reach nothing where a route cannot be read: the routes are listed before one
of them is moved. -/
theorem inTurn_of_not_allRead (hlist : fleet.store.list = .ok ids) (hread : ¬ AllRead fleet.store ids) :
    ∃ e, inTurn (bootstrapStages s).tail fleet = (([], .error e), fleet) := by
  have hunread : SomeUnread fleet ids := by
    by_contra hnot
    exact hread (not_someUnread_iff.mp hnot)
  obtain ⟨e, he⟩ := outcome_list_of_someUnread hlist hunread
  have hmigrate : outcome migrate fleet = (.error e, fleet) := outcome_bind_error he
  exact ⟨e, inTurn_cons_error (outcome_bind_error hmigrate)⟩

/-- Bootstrapping goes on to the other stages once the shared object is written. -/
theorem bootstrap_of_writeShared {mid : Fleet}
    (h : outcome (writeShared s.sharedMiddlewares) fleet = (.ok (), mid)) : bootstrap s fleet =
      ((.sharedWritten :: (inTurn (bootstrapStages s).tail mid).1.1,
        (inTurn (bootstrapStages s).tail mid).1.2), (inTurn (bootstrapStages s).tail mid).2) := by
  have hfirst : outcome (do writeShared s.sharedMiddlewares; return [Milestone.sharedWritten]) fleet =
      (.ok [.sharedWritten], mid) := outcome_bind_ok h
  exact inTurn_cons_ok hfirst

/-- In a fleet that is in line bootstrapping changes nothing in the folder, and if the shared object may be
written it succeeds without reaching anything if and only if all routes can be read. -/
theorem bootstrap_of_inLine (h : InLine s fleet.store) (hlist : fleet.store.list = .ok ids) :
    (bootstrap s fleet).2.store.content = fleet.store.content ∧
      (fleet.store.refusals.writes 0 = false →
        ((bootstrap s fleet).1 = (quiet s, .ok ()) ↔ AllRead fleet.store ids)) := by
  obtain ⟨bytes, hbytes, hshared⟩ := h.shared
  obtain ⟨entries, hentries⟩ := Store.exists_entries_of_list hlist
  obtain ⟨result, store, hwrite, hroot, hcontent, hgranted⟩ := outcome_writeShared_again hbytes hshared
  cases result with
  | error e =>
    have hrun : bootstrap s fleet = (([], .error e), { fleet with store := store }) :=
      inTurn_cons_error (outcome_bind_error hwrite)
    rw [hrun]
    refine ⟨hcontent, fun hwrites => ?_⟩
    cases hgranted hwrites
  | ok done =>
    rw [bootstrap_of_writeShared hwrite]
    -- The other stages see the same folder.
    have hentries' := hcontent.trans hentries
    have hlist' : store.list = .ok ids :=
      (Store.list_congr hroot hentries' hentries fun _ => rfl).trans hlist
    by_cases hread : AllRead fleet.store ids
    · obtain ⟨compiler, hquiet⟩ := @inTurn_of_aligned s { fleet with store := store } ids hlist'
        (hread.of_content hroot hentries hentries') (h.of_content hroot hentries hentries').aligned
      rw [hquiet]
      exact ⟨hcontent, fun _ => ⟨fun _ => hread, fun _ => rfl⟩⟩
    · obtain ⟨e, hfail⟩ := @inTurn_of_not_allRead s { fleet with store := store } ids hlist'
        fun hall => hread (hall.of_content hroot.symm hentries' hentries)
      rw [hfail]
      refine ⟨hcontent, fun _ => ⟨fun hquiet => ?_, fun hall => absurd hall hread⟩⟩
      cases congrArg Prod.snd hquiet

end Quiet

/-! ## Bootstrapping twice -/

section Twice

variable {s : Settings} {fleet written moved resolved after : Fleet} {reached : List Milestone}
variable {pairs : List (RouteId × RouteId)} {count : Nat}

/-- No stage after the first writes the shared object. -/
theorem holdsAt_bootstrap {entry : Option Entry} (hplain : written.store.HasPlainNames)
    (hholds : written.store.HoldsAt RouteId.shared entry)
    (hmove : outcome migrate written = (.ok pairs, moved))
    (hresolve : outcome (setCertResolver s.certResolver) moved = (.ok count, resolved))
    (hlast : if s.authEndpoint.isSome then after = resolved
      else ∃ count, outcome (setForwardAuth .detach) resolved = (.ok count, after)) :
    after.store.HoldsAt RouteId.shared entry := by
  have hguards := guards_holdsAt entry
  have hmoved := hguards.migrate.of_outcome ⟨hplain, hholds⟩ hmove
  have hresolved := (hguards.setCertResolver s.certResolver).of_outcome hmoved hresolve
  split at hlast
  · exact hlast ▸ hresolved.2
  · obtain ⟨_, hdetach⟩ := hlast
    exact ((hguards.edit _).of_outcome hresolved hdetach).2

/-- Bootstrapping that succeeds brings a fleet in line with its settings, and no reference dangles then if
none did and no route was moved whose names are shared ones. To bootstrap again changes nothing in the
folder, and succeeds without reaching anything if and only if all routes can be read; that is so where all
tags are kept. -/
theorem bootstrap_converges (hplain : fleet.store.HasPlainNames)
    (h : bootstrap s fleet = ((reached, .ok ()), after)) : InLine s after.store ∧
      ((∀ r, Lists fleet.store r → r.graph.dangling wellKnown = []) →
        (∀ old new, .migrated old new ∈ reached → SparesShared old) →
          ∀ r, Lists after.store r → r.graph.dangling s.sharedMiddlewares.names = []) ∧
      ∃ ids, after.store.list = .ok ids ∧ (KeepsTags fleet.store → AllRead after.store ids) ∧
        ∀ next : Fleet, next.store.root = after.store.root → next.store.content = after.store.content →
          (bootstrap s next).2.store.content = after.store.content ∧
            (next.store.refusals.writes 0 = false →
              ((bootstrap s next).1 = (quiet s, .ok ()) ↔ AllRead after.store ids)) := by
  obtain ⟨written, moved, resolved, pairs, count, hwrite, hmove, hresolve, hlast, hreached⟩ :=
    bootstrap_eq_ok h
  obtain ⟨hreach, bytes, hbytes, hholds⟩ := holdsAt_writeShared hwrite
  have hplain' := (maintains_writeShared _).of_outcome hplain hwrite
  obtain ⟨entries, hentries, hfile⟩ := holdsAt_bootstrap hplain' hholds hmove hresolve hlast
  have hlist := Store.list_eq hentries
  have hdescends := descends_bootstrap hmove hresolve hlast
  have hinLine : InLine s after.store := by
    have hroot : after.store.root = fleet.store.root := by
      have hkept := (robust_root fleet.store.root).bootstrap s rfl
      rwa [h] at hkept
    refine ⟨⟨bytes, hbytes, (Store.read_eq_ok_iff hentries).mpr ⟨hroot ▸ hreach, hfile⟩⟩, ?_⟩
    intro r' hr'
    obtain ⟨r, -, hbrought⟩ := hdescends.origin r' hr'
    exact hbrought.aligned
  refine ⟨hinLine, fun hwhole hspares r' hr' => ?_, _, hlist, fun htags => ?_, fun next hroot hnext => ?_⟩
  · obtain ⟨r, hr, hbrought⟩ := hdescends.origin r' hr'
    exact hbrought.whole (hwhole r (hr.of_writeShared hplain hwrite)) fun p hp =>
      hspares p.1 p.2 (hreached p hp)
  · exact hdescends.allRead (fun r hr => htags r (hr.of_writeShared hplain hwrite)) _ hlist
  · have hentries' := hnext.trans hentries
    have hlist' := (Store.list_congr hroot hentries' hentries fun _ => rfl).trans hlist
    obtain ⟨hcontent, hquiet⟩ :=
      bootstrap_of_inLine (hinLine.of_content hroot hentries hentries') hlist'
    refine ⟨hcontent.trans hnext, fun hwrites => (hquiet hwrites).trans ?_⟩
    exact ⟨fun hall => hall.of_content hroot.symm hentries' hentries,
      fun hall => hall.of_content hroot hentries hentries'⟩

end Twice

/-- An object that refers to forward authentication, and keeps as it is a middleware of which a tag spells a
comma. -/
def guardedCommaText : String :=
  "http:\n  routers:\n    a:\n      rule: x\n      middlewares:\n      - sys-forwardauth\n" ++
    "  middlewares:\n    m:\n      k: !a%2Cb x\n"

/-- A fleet of that object, under an identity of two parts. -/
def guardedComma : Fleet where
  store :=
    { root := "conf"
      content := .ok (Dict.ofList [("blog_0a1b2c3d.yaml", .file guardedCommaText.toUTF8)]) }
  tags := []
  compiler := { certResolver := "le", hasher := Hasher.marking, hostIp := none }

/-- Settings of a fleet where there is nobody to ask. -/
def openSettings : Settings := { configDir := "conf", certResolver := "le" }

/-- The object is rewritten, and then it cannot be read. -/
theorem bootstrap_converges_guardedComma : guardedComma.store.HasPlainNames ∧
    ∃ reached after, bootstrap openSettings guardedComma = ((reached, .ok ()), after) ∧
      (bootstrap openSettings after).2.store.content = after.store.content ∧
      (bootstrap openSettings after).1 ≠ (quiet openSettings, .ok ()) := by
  have hplain : guardedComma.store.HasPlainNames := by
    rintro _ ⟨⟩ file e he
    obtain ⟨rfl, -⟩ := Prod.mk.inj (List.mem_singleton.mp (Dict.mem_of_get?_ofList he))
    decide
  obtain ⟨hdone, hids, hlost, hgranted⟩ : (bootstrap openSettings guardedComma).1.2.toOption = some () ∧
      (bootstrap openSettings guardedComma).2.store.list = .ok [⟨"blog_0a1b2c3d"⟩] ∧
      ((bootstrap openSettings guardedComma).2.store.read "blog_0a1b2c3d").toOption.map
        (·.map Graph.ofBytes?) = some (some none) ∧
      (bootstrap openSettings guardedComma).2.store.refusals.writes 0 = false := by decide +kernel
  refine ⟨hplain, ?_⟩
  rcases hrun : bootstrap openSettings guardedComma with ⟨⟨reached, e | done⟩, after⟩
  · rw [hrun] at hdone
    exact nomatch hdone
  rw [hrun] at hids hlost hgranted
  obtain ⟨-, -, ids, hlist, -, hagain⟩ := bootstrap_converges hplain hrun
  obtain ⟨hcontent, hquiet⟩ := hagain after rfl rfl
  refine ⟨reached, after, rfl, hcontent, fun heq => ?_⟩
  obtain rfl := Except.ok.inj (hlist.symm.trans hids)
  rcases (hquiet hgranted).mp heq _ List.mem_cons_self with hnone | ⟨g, bytes, hbytes, hgraph⟩
  · rw [hnone] at hlost
    exact nomatch hlost
  · rw [hbytes] at hlost
    have hnone := Option.some.inj (Option.some.inj hlost)
    exact nomatch hnone.symm.trans (graphOf_eq_ok_iff.mp hgraph)

end Fleet

end RouteFleet
