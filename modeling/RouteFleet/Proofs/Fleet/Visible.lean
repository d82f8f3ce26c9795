import RouteFleet.Proofs.Fleet.Names
import RouteFleet.Proofs.Store.Discovery

/-! # Routes in sight

An object under a key that can name a file is in sight of the fleet if it is listed: then its name is
taken, and whatever is done with all routes is done with it (`Fleet.IsInSight`). What is stored for a
route is in sight unless its identity is reserved or discovery loses the way to the folder
(`Fleet.isInSight_iff`).

There is one name by which a route gets a reserved identity, and the rules for names do not refuse it
(`RouteId.leadName`). So a route that is added, replaced or moved is in sight if and only if this is not
the name before its tag and the folder's path does not lose its way (`Fleet.isInSight_stored`).
-/

namespace RouteFleet

namespace Fleet

/-! ## Being in sight -/

/-- Whether the object under an identity is in sight: it is listed, discovery finds it in whatever tree the
folder lies, no other route of its name can be added, and it is read when all routes are. -/
structure IsInSight (fleet : Fleet) (id : RouteId) : Prop where
  listed : ∃ ids, fleet.store.list = .ok ids ∧ id ∈ ids
  found : ∀ fs, fleet.store.IsIn fs → ∃ paths, Glob.discover fs fleet.store.root "*.yaml" = .ok paths ∧
    ∃ path ∈ paths, Store.listedAs? path = some id
  taken : ∀ route : Route, route.validate.isValid = true → route.name = id.name →
    (outcome (add route) fleet).1 = .error (.alreadyExists id.name)
  loaded : ∀ rs, (outcome list fleet).1 = .ok rs → id ∈ rs.map (·.id)

section InSight

variable {fleet : Fleet} {entries : Dict Entry} {id : RouteId} {bytes : ByteArray}

/-- What is listed and can be read is in sight. -/
theorem isInSight_of_mem {ids : List RouteId} (hlist : fleet.store.list = .ok ids) (hid : id ∈ ids)
    (hread : fleet.store.read id.text = .ok (some bytes)) : IsInSight fleet id where
  listed := ⟨ids, hlist, hid⟩
  found fs hfs := by
    obtain ⟨entries, hentries⟩ := Store.exists_entries_of_list hlist
    obtain ⟨paths, hpaths, hids⟩ := hfs.list_eq_discover hentries
    obtain rfl := Except.ok.inj (hids.symm.trans hlist)
    exact ⟨paths, hpaths, List.mem_filterMap.mp hid⟩
  taken route hvalid hname := by
    rw [outcome_add_iff hlist]
    exact ⟨hname.symm, hvalid, id, hid, hname.symm⟩
  loaded rs hrs := by
    rcases outcome_list_cases hlist with ⟨e, hfail⟩ | ⟨rs', hall, hloaded⟩
    · rw [hfail] at hrs
      exact nomatch hrs
    · rw [hall] at hrs
      obtain rfl := Except.ok.inj hrs
      by_contra hnot
      exact nomatch hread.symm.trans (hloaded.gone id hid hnot)

/-- Where no name of a file has a slash in it, an object is in sight if and only if its identity is not
reserved and the folder's path does not lose its way. -/
theorem isInSight_iff (hplain : fleet.store.HasPlainNames) (hentries : fleet.store.content = .ok entries)
    (hkey : Store.IsReachable fleet.store.root id.text)
    (hfile : entries.get? id.fileName = some (.file bytes)) :
    IsInSight fleet id ↔ id.isReserved = false ∧ Path.isLost fleet.store.root = false := by
  constructor
  · rintro ⟨⟨ids, hlist, hid⟩, -, -, -⟩
    refine ⟨?_, Store.isLost_of_mem_list hlist hid⟩
    by_contra hreserved
    exact Store.notMem_list hplain hlist (Bool.eq_true_of_not_eq_false hreserved) hid
  · rintro ⟨hfree, hkept⟩
    have hlist := Store.list_eq hentries
    exact isInSight_of_mem hlist (Store.mem_list_of_file hentries hlist hkept hkey hfile hfree)
      ((Store.read_eq_ok_iff hentries).mpr ⟨hkey, hfile⟩)

end InSight

/-- No call makes a name of a file that has a slash in it. -/
theorem robust_plainNames : Robust Store.HasPlainNames where
  write _ key bytes h := h.write key bytes
  remove _ key h := h.remove key

/-! ## One route -/

/-- Whether a route is stored under its own name, and where a file can be in the folder at `root`. -/
structure IsFiled (root : String) (route : Route) (r : StoredRoute) : Prop where
  isName : Rule.isName route.name = true
  name_eq : r.id.name = route.name
  isReachable : Store.IsReachable root r.id.text

/-- What is filed is reserved if it has a tag and the one name. -/
theorem IsFiled.isReserved_iff {root : String} {route : Route} {r : StoredRoute} (h : IsFiled root route r) :
    r.id.isReserved = true ↔ route.name = RouteId.leadName ∧ r.id.isLegacy = false := by
  rw [RouteId.isReserved_iff_of_isName (h.name_eq ▸ h.isName), h.name_eq]

section Filing

variable (root : String)

theorem maintains_save_isReachable (key : String) (g : Graph) :
    Maintains (fun s => s.root = root) (save key g) fun _ => Store.IsReachable root key := by
  intro fleet hroot
  have hsave := @Guards.save _ _ (robust_root root).guards ⟨key⟩ trivial g
  refine ⟨(hsave fleet hroot).1, fun done hdone => ?_⟩
  obtain ⟨entries, bytes, -, hreach, -⟩ :=
    outcome_save_eq_ok (Prod.ext hdone rfl : outcome (save key g) fleet = (.ok done, _))
  exact hroot ▸ hreach

theorem maintains_add_isFiled (route : Route) :
    Maintains (fun s => s.root = root) (add route) fun r => IsFiled root route r ∧ r.id.isLegacy = false := by
  refine (Maintains.check route).bind fun _ hvalid => ?_
  have hname := RouteId.IsMade.name_ne_empty hvalid.name
  refine (Maintains.of_keeps (keeps_checkName _ _ _)).bind fun _ _ => ?_
  refine (Maintains.freshId (P := fun id => id.name = route.name ∧ id.isLegacy = false) fun tag =>
    ⟨RouteId.name_ofTag hname tag, RouteId.isLegacy_ofTag hname tag⟩).bind fun id hid => ?_
  refine (Maintains.of_keeps (keeps_compile _ id route none)).bind fun g _ => ?_
  refine (maintains_save_isReachable root id.text g).bind fun _ hreach => ?_
  exact Maintains.pure ⟨⟨hvalid.name, hid.1, hreach⟩, hid.2⟩

theorem maintains_update_isFiled (route : Route) :
    Maintains (fun s => s.root = root) (update route) (IsFiled root route) := by
  unfold update
  split
  · exact Maintains.throw _
  rename_i current _
  refine (Maintains.check route).bind fun _ hvalid => ?_
  refine (Maintains.of_keeps (keeps_load _ current)).bind fun found _ => ?_
  split
  · exact Maintains.throw _
  rename_i previous
  refine (Maintains.nextId (P := fun id => id.name = route.name) id fun tag =>
    RouteId.name_ofTag (RouteId.IsMade.name_ne_empty hvalid.name) tag).bind fun id hid => ?_
  refine (Maintains.of_keeps (keeps_compile _ id route (some previous))).bind fun g _ => ?_
  refine (maintains_save_isReachable root id.text g).bind fun _ hreach => ?_
  have hdone : Maintains (fun s => s.root = root) (pure { id := id, graph := g } : FleetM StoredRoute)
      (IsFiled root route) := Maintains.pure ⟨hvalid.name, hid, hreach⟩
  split
  · exact ((robust_root root).guards.removal trivial).discard.bind fun _ _ => hdone
  · exact hdone

end Filing

section OneRoute

variable {fleet after : Fleet} {route : Route} {r : StoredRoute}

theorem isInSight_add (hplain : fleet.store.HasPlainNames)
    (h : outcome (add route) fleet = (.ok r, after)) :
    IsInSight after r.id ↔ route.name ≠ RouteId.leadName ∧ Path.isLost fleet.store.root = false := by
  have hafter := (robust_plainNames.guards.add route).of_outcome hplain h
  have hfiled := (maintains_add_isFiled _ route fleet rfl).2 r (congrArg Prod.fst h)
  have hroot := root_add h
  obtain ⟨entries, bytes, -, -, -, hcontent⟩ := isAdded_add h
  rw [isInSight_iff hafter hcontent (hroot ▸ hfiled.1.isReachable) (by rw [Dict.get?_insert, if_pos rfl]),
    ← Bool.not_eq_true, hfiled.1.isReserved_iff, and_iff_left hfiled.2, hroot]

theorem isInSight_update (hplain : fleet.store.HasPlainNames)
    (h : outcome (update route) fleet = (.ok r, after)) :
    IsInSight after r.id ↔ ¬ (route.name = RouteId.leadName ∧ r.id.isLegacy = false) ∧
      Path.isLost fleet.store.root = false := by
  have hafter := (robust_plainNames.guards.update route (fun _ _ => trivial)).of_outcome hplain h
  have hfiled := (maintains_update_isFiled _ route fleet rfl).2 r (congrArg Prod.fst h)
  have hroot := root_update h
  obtain ⟨current, hcurrent⟩ : ∃ current, route.id = some current := by
    cases hid : route.id with
    | some current => exact ⟨current, rfl⟩
    | none =>
      rw [update, hid] at h
      cases h
  obtain ⟨entries, old, bytes, -, -, -, -, -, hcontent⟩ := (isReplaced_update hcurrent h).1
  -- Whether it lies in the place of the old object or elsewhere, it is there.
  have hthere : (if r.id = current then entries.insert r.id.fileName (.file bytes)
      else (entries.insert r.id.fileName (.file bytes)).erase current.fileName).get? r.id.fileName =
        some (.file bytes) := by
    split
    · rw [Dict.get?_insert, if_pos rfl]
    · rename_i hid
      rw [Dict.get?_erase, if_neg fun hfile => hid (RouteId.fileName_inj hfile), Dict.get?_insert,
        if_pos rfl]
  rw [isInSight_iff hafter hcontent (hroot ▸ hfiled.isReachable) hthere, ← Bool.not_eq_true,
    hfiled.isReserved_iff, hroot]

end OneRoute

/-! ## All routes -/

section AllRoutes

variable {fleet after : Fleet} {pairs : List (RouteId × RouteId)}

theorem isInSight_migrate (hplain : fleet.store.HasPlainNames)
    (h : outcome migrate fleet = (.ok pairs, after)) :
    ∀ p ∈ pairs, IsInSight after p.2 ↔ p.1.text ≠ RouteId.leadName := by
  have hafter := (robust_plainNames.guards.migrate).of_outcome hplain h
  obtain ⟨rs, ids, entries, entries', moves, hloaded, hids, -, hcontent, hroot, hmoves, rfl, hmoved⟩ :=
    moved_of_migrate h
  intro p hp
  obtain ⟨m, hm, rfl⟩ := List.mem_map.mp hp
  obtain ⟨bytes, -, hfile⟩ := hmoved.moved m hm
  obtain ⟨⟨tag, hnew⟩, -, -⟩ := hmoved.named m hm
  -- It was listed, so the path does not lose its way, and only the tag can make it reserved.
  have hlisted : m.1.id ∈ ids := by
    have hmem : m.1 ∈ rs := (List.mem_filter.mp (hmoves.symm ▸ List.mem_map_of_mem hm)).1
    exact hloaded.sublist.subset (List.mem_map_of_mem hmem)
  have hkept : Path.isLost after.store.root = false := hroot ▸ Store.isLost_of_mem_list hids hlisted
  have hfree : m.1.id.isReserved = false := by
    by_contra hreserved
    exact Store.notMem_list hplain hids (Bool.eq_true_of_not_eq_false hreserved) hlisted
  have hreserved : m.2.isReserved = true ↔ m.1.id.text = RouteId.leadName := by
    rw [hnew, RouteId.isReserved_ofTag]
    exact or_iff_left (Bool.eq_false_iff.mp hfree)
  rw [isInSight_iff hafter hcontent (hroot ▸ (hmoved.free m hm).1) hfile, ← Bool.not_eq_true, hreserved,
    and_iff_left hkept]

end AllRoutes

/-! ## Whatever is stored -/

/-- Whatever is stored as a route is in sight afterwards, if and only if it does not get a tag after the
one name that makes the lead of reserved keys, and the folder's path does not lose its way. What is moved to
another identity was found, so there the path does not. -/
theorem isInSight_stored {fleet : Fleet} (hplain : fleet.store.HasPlainNames) :
    (∀ route r after, outcome (add route) fleet = (.ok r, after) →
      (IsInSight after r.id ↔ route.name ≠ RouteId.leadName ∧ Path.isLost fleet.store.root = false)) ∧
    (∀ route r after, outcome (update route) fleet = (.ok r, after) →
      (IsInSight after r.id ↔ ¬ (route.name = RouteId.leadName ∧ r.id.isLegacy = false) ∧
        Path.isLost fleet.store.root = false)) ∧
    ∀ pairs after, outcome migrate fleet = (.ok pairs, after) →
      ∀ p ∈ pairs, (IsInSight after p.2 ↔ p.1.text ≠ RouteId.leadName) := by
  refine ⟨?_, ?_, ?_⟩
  · intro route r after h
    exact isInSight_add hplain h
  · intro route r after h
    exact isInSight_update hplain h
  · intro pairs after h
    exact isInSight_migrate hplain h

/-- A valid route with the one name. -/
def leadRoute : Route where
  name := "sys"
  domain := "blog.example.com"
  backend := { url := "http://10.0.0.5:8080" }

/-- A fleet whose folder is empty. -/
def emptyFleet : Fleet :=
  start "conf" {} [Tag.ofNat 1, Tag.ofNat 2] { certResolver := "le", hasher := Hasher.marking, hostIp := none }

/-- The same folder, reached by a path that loses its way. -/
def lostFleet : Fleet := { emptyFleet with store := { emptyFleet.store with root := ".//conf" } }

/-- What was computed of a route that was added. -/
theorem exists_outcome_add {fleet : Fleet} {route : Route} {id : RouteId}
    (h : (outcome (add route) fleet).1.toOption.map (·.id) = some id) :
    ∃ r after, outcome (add route) fleet = (.ok r, after) ∧ r.id = id := by
  rcases houtcome : outcome (add route) fleet with ⟨e | r, after⟩
  · rw [houtcome] at h
    exact nomatch h
  · rw [houtcome] at h
    exact ⟨r, after, rfl, Option.some.inj h⟩

/-- The route with the one name is added, and then it is out of sight. Another is in sight, but not where the
path loses its way. -/
theorem isInSight_stored_leadRoute :
    emptyFleet.store.HasPlainNames ∧ leadRoute.validate.isValid = true ∧
    (∃ r after, outcome (add leadRoute) emptyFleet = (.ok r, after) ∧ r.id = ⟨"sys_00000001"⟩ ∧
      ¬ IsInSight after r.id) ∧
    (∃ r after, outcome (add blogAgain) emptyFleet = (.ok r, after) ∧ r.id = ⟨"blog_00000001"⟩ ∧
      IsInSight after r.id) ∧
    ∃ r after, outcome (add blogAgain) lostFleet = (.ok r, after) ∧ r.id = ⟨"blog_00000001"⟩ ∧
      ¬ IsInSight after r.id := by
  have hplain : emptyFleet.store.HasPlainNames := by
    rintro _ ⟨⟩ file e he
    exact nomatch he
  have hlost : lostFleet.store.HasPlainNames := hplain
  refine ⟨hplain, by decide +kernel, ?_, ?_, ?_⟩
  · obtain ⟨r, after, houtcome, hid⟩ :=
      @exists_outcome_add emptyFleet leadRoute ⟨"sys_00000001"⟩ (by decide +kernel)
    refine ⟨r, after, houtcome, hid, ?_⟩
    rw [(isInSight_stored hplain).1 leadRoute r after houtcome]
    exact fun hboth => hboth.1 rfl
  · obtain ⟨r, after, houtcome, hid⟩ :=
      @exists_outcome_add emptyFleet blogAgain ⟨"blog_00000001"⟩ (by decide +kernel)
    refine ⟨r, after, houtcome, hid, ?_⟩
    rw [(isInSight_stored hplain).1 blogAgain r after houtcome]
    decide
  · obtain ⟨r, after, houtcome, hid⟩ :=
      @exists_outcome_add lostFleet blogAgain ⟨"blog_00000001"⟩ (by decide +kernel)
    refine ⟨r, after, houtcome, hid, ?_⟩
    rw [(isInSight_stored hlost).1 blogAgain r after houtcome]
    decide

end Fleet

end RouteFleet
