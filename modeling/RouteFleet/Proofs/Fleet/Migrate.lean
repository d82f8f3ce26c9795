import RouteFleet.Proofs.Fleet.Outcome
import RouteFleet.Proofs.Graph.Rename
import RouteFleet.Proofs.Store.Listing

/-! # Moving legacy routes

Legacy routes are moved one after another, in the order of the list, until one cannot be moved. Those
before are each moved once and as a whole: what lay under the old identity lies, renamed, under a new one
of the same name, and nothing else is changed (`Fleet.Moved`).

Main statements: `Fleet.migrates`, this is how it goes for each folder; and where all are moved, no
legacy route is left, and moving them again changes nothing if and only if those that were moved and are
listed can be read (`Fleet.Settled`).
-/

namespace RouteFleet

namespace Fleet

/-! ## What is moved -/

/-- Whether the folder at `root` comes of what it was when some routes are moved to new identities. -/
structure Moved (root : String) (before after : Dict Entry) (moves : List (StoredRoute × RouteId)) :
    Prop where
  legacy : ∀ m ∈ moves, m.1.id.isLegacy = true ∧ m.1.id.name = m.1.id.text
  named : ∀ m ∈ moves, (∃ tag, m.2 = RouteId.ofTag m.1.id.text tag) ∧ m.2.isLegacy = false ∧
    m.2.name = m.1.id.text
  free : ∀ m ∈ moves, Store.IsReachable root m.2.text ∧ before.get? m.2.fileName = none
  distinct : (moves.map (·.2)).Nodup
  gone : ∀ m ∈ moves, after.get? m.1.id.fileName = none
  moved : ∀ m ∈ moves, ∃ bytes, bytesOf m.2.text (m.1.graph.rename m.1.id m.2) = .ok bytes ∧
    after.get? m.2.fileName = some (.file bytes)
  kept : ∀ file, (∀ m ∈ moves, file ≠ m.1.id.fileName ∧ file ≠ m.2.fileName) →
    after.get? file = before.get? file

/-- Why a route is not moved, after `n` others were: there is no identity for it, or its graph cannot
be written, or the system refuses the write. -/
inductive StaysPut (before after : Store) (n : Nat) (tags : List Tag) (r : StoredRoute) :
    FleetError → Prop
  | noIdentity {e : FleetError} (h : (firstFree after r.id.text tags).1 = .error e) :
    StaysPut before after n tags r e
  | unwritable {id : RouteId} (h : (firstFree after r.id.text tags).1 = .ok id)
    (hunfit : ¬ r.graph.isWritable) : StaysPut before after n tags r (.store (.unwritable id.text))
  | refused {id : RouteId} (h : (firstFree after r.id.text tags).1 = .ok id)
    (hrefused : before.refusals.writes n = true) :
    StaysPut before after n tags r (.store (.io (Path.join before.root id.fileName) .diskFull))

/-- How it ends that legacy routes are moved: some were, and the rest stays, for a reason if there is
one. -/
structure MovesEnd (before after : Store) (tags : List Tag) (moves : List (StoredRoute × RouteId))
    (rest : List StoredRoute) (result : Except FleetError (List (RouteId × RouteId))) : Prop where
  granted : ∀ k < moves.length, before.refusals.writes k = false
  done : ∀ pairs, result = .ok pairs → rest = [] ∧ pairs = moves.map fun m => (m.1.id, m.2)
  stopped : ∀ e, result = .error e → ∃ r rest' left, rest = r :: rest' ∧ left <:+ tags ∧
    StaysPut before after moves.length left r e

section Folders

variable {root : String} {before mid after : Dict Entry} {r : StoredRoute} {id : RouteId}
variable {moves : List (StoredRoute × RouteId)} {bytes : ByteArray}

theorem Moved.nil : Moved root before before [] :=
  ⟨List.forall_mem_nil _, List.forall_mem_nil _, List.forall_mem_nil _, List.nodup_nil,
    List.forall_mem_nil _, List.forall_mem_nil _, fun _ _ => rfl⟩

theorem fileName_ne {id id' : RouteId} (h : id.isLegacy = true) (h' : id'.isLegacy = false) :
    id.fileName ≠ id'.fileName := by
  intro hfile
  rw [RouteId.fileName_inj hfile, h'] at h
  exact nomatch h

/-- What lies in a folder after one move. -/
theorem get?_move (file : String) :
    ((before.insert id.fileName (.file bytes)).erase r.id.fileName).get? file =
      if file = r.id.fileName then none
      else if file = id.fileName then some (.file bytes) else before.get? file := by
  rw [Dict.get?_erase, Dict.get?_insert]

/-- One more route is moved before some others. -/
theorem Moved.cons (hlegacy : r.id.isLegacy = true) {tag : Tag} (hid : id = RouteId.ofTag r.id.text tag)
    (hreach : Store.IsReachable root id.text) (hfree : before.get? id.fileName = none)
    (hname : r.id.text ≠ "")
    (hbytes : bytesOf id.text (r.graph.rename r.id id) = .ok bytes)
    (h : Moved root ((before.insert id.fileName (.file bytes)).erase r.id.fileName) after moves) :
    Moved root before after ((r, id) :: moves) := by
  have htwoParts : id.isLegacy = false := hid ▸ RouteId.isLegacy_ofTag hname tag
  -- No other route is moved to the same identity, since it is taken by then.
  have hother : ∀ m ∈ moves, before.get? m.2.fileName = none ∧ m.2.fileName ≠ id.fileName := by
    intro m hm
    have hnone := (h.free m hm).2
    rw [get?_move, if_neg (fileName_ne hlegacy (h.named m hm).2.1).symm] at hnone
    split at hnone
    · exact nomatch hnone
    · rename_i hne
      exact ⟨hnone, hne⟩
  -- What is gone stays so, also if it is to be moved again.
  have hgone : after.get? r.id.fileName = none := by
    by_cases hagain : ∃ m ∈ moves, r.id.fileName = m.1.id.fileName
    · obtain ⟨m, hm, hfile⟩ := hagain
      exact hfile ▸ h.gone m hm
    · rw [h.kept _ fun m hm => ⟨fun hfile => hagain ⟨m, hm, hfile⟩,
        fileName_ne hlegacy (h.named m hm).2.1⟩, get?_move, if_pos rfl]
  have hplace : ∀ m ∈ moves, id.fileName ≠ m.1.id.fileName ∧ id.fileName ≠ m.2.fileName :=
    fun m hm => ⟨(fileName_ne (h.legacy m hm).1 htwoParts).symm, (hother m hm).2.symm⟩
  refine ⟨List.forall_mem_cons.mpr ⟨⟨hlegacy, RouteId.name_of_isLegacy hlegacy⟩, h.legacy⟩,
    List.forall_mem_cons.mpr ⟨⟨⟨tag, hid⟩, htwoParts, hid ▸ RouteId.name_ofTag hname tag⟩, h.named⟩,
    List.forall_mem_cons.mpr ⟨⟨hreach, hfree⟩, fun m hm => ⟨(h.free m hm).1, (hother m hm).1⟩⟩,
    List.nodup_cons.mpr ⟨fun hmem => ?_, h.distinct⟩,
    List.forall_mem_cons.mpr ⟨hgone, h.gone⟩,
    List.forall_mem_cons.mpr ⟨⟨bytes, hbytes, ?_⟩, h.moved⟩, fun file hfile => ?_⟩
  · obtain ⟨m, hm, heq⟩ := List.mem_map.mp hmem
    exact (hother m hm).2 (congrArg RouteId.fileName heq)
  · rw [h.kept _ hplace, get?_move, if_neg (fileName_ne hlegacy htwoParts).symm, if_pos rfl]
  · rw [List.forall_mem_cons] at hfile
    rw [h.kept file hfile.2, get?_move, if_neg hfile.1.1, if_neg hfile.1.2]

/-- A legacy route that was not moved lies where it lay. -/
theorem Moved.spared (h : Moved root before after moves) (hlegacy : r.id.isLegacy = true)
    (hnew : ∀ m ∈ moves, m.1.id ≠ r.id) : after.get? r.id.fileName = before.get? r.id.fileName :=
  h.kept _ fun m hm => ⟨fun hfile => hnew m hm (RouteId.fileName_inj hfile).symm,
    fileName_ne hlegacy (h.named m hm).2.1⟩

end Folders

/-! ## Moving one route -/

/-- Moves one route to an identity. -/
def moveTo (r : StoredRoute) (id : RouteId) : FleetM RouteId := do
  save id.text (r.graph.rename r.id id)
  discard (remove r.id)
  return id

/-- Moves one route to a new identity. -/
def moveOne (r : StoredRoute) : FleetM RouteId := freshId r.id.name >>= moveTo r

theorem moveEach_cons (r : StoredRoute) (rs : List StoredRoute) :
    moveEach (r :: rs) = moveOne r >>= fun id => moveEach rs >>= fun pairs =>
      pure ((r.id, id) :: pairs) := by
  simp [moveEach, moveOne, moveTo]

/-- What the system refuses does not matter for finding an identity. -/
theorem firstFree_congr {s t : Store} (hroot : s.root = t.root) (hcontent : s.content = t.content)
    (name : String) (tags : List Tag) : firstFree s name tags = firstFree t name tags := by
  obtain ⟨root, content, refusals⟩ := s
  obtain ⟨root', content', refusals'⟩ := t
  obtain rfl : root = root' := hroot
  obtain rfl : content = content' := hcontent
  induction tags with
  | nil => rfl
  | cons tag tags ih =>
    rw [firstFree, firstFree, ih]
    rfl

theorem suffix_firstFree (s : Store) (name : String) (tags : List Tag) :
    (firstFree s name tags).2 <:+ tags := by
  induction tags with
  | nil => exact List.suffix_refl _
  | cons tag tags ih =>
    rw [firstFree]
    split
    · exact List.suffix_cons _ _
    · exact ih.trans (List.suffix_cons _ _)
    · exact List.suffix_cons _ _

/-- The store after the object of a route was written anew and removed where it was. -/
def afterMove (s : Store) (entries : Dict Entry) (r : StoredRoute) (id : RouteId) (bytes : ByteArray) :
    Store :=
  (s.afterWrite.withEntries (entries.insert id.fileName (.file bytes))).afterRemoval.withEntries
    ((entries.insert id.fileName (.file bytes)).erase r.id.fileName)

section MoveTo

variable {r : StoredRoute} {id : RouteId} {fleet : Fleet} {entries : Dict Entry}

theorem outcome_moveTo_unwritable (hfit : ¬ (r.graph.rename r.id id).isWritable = true) :
    outcome (moveTo r id) fleet = (.error (.store (.unwritable id.text)), fleet) :=
  outcome_bind_error (outcome_save_unwritable id.text hfit fleet)

variable (hentries : fleet.store.content = .ok entries) (hreach : Store.IsReachable fleet.store.root id.text)
  (hfree : entries.get? id.fileName = none) (hfit : (r.graph.rename r.id id).isWritable = true)

include hentries hreach hfree hfit

theorem outcome_moveTo_refused (hwrites : fleet.store.refusals.writes 0 = true) :
    outcome (moveTo r id) fleet =
      (.error (.store (.io (Path.join fleet.store.root id.fileName) .diskFull)),
        { fleet with store := fleet.store.afterWrite }) := by
  refine outcome_bind_error (outcome_save_refused hfit hentries hreach ?_ hwrites)
  exact hfree ▸ nofun

theorem outcome_moveTo_granted (hlie : LiesIn fleet.store.root entries r)
    (hwrites : fleet.store.refusals.writes 0 = false)
    (hremoval : fleet.store.refusals.removals 0 = false) :
    ∃ bytes, bytesOf id.text (r.graph.rename r.id id) = .ok bytes ∧ outcome (moveTo r id) fleet =
      (.ok id, { fleet with store := afterMove fleet.store entries r id bytes }) := by
  have hnotFolder : entries.get? id.fileName ≠ some .folder := hfree ▸ nofun
  obtain ⟨bytes, hbytes, hsave⟩ := outcome_save_granted hfit hentries hreach hnotFolder hwrites
  obtain ⟨old, hold⟩ := (hlie.insert id.fileName bytes).2
  have hgone : (fleet.store.afterWrite.withEntries (entries.insert id.fileName (.file bytes))).remove
      r.id.text = (.ok true, afterMove fleet.store entries r id bytes) := by
    refine (Store.remove_eq (Store.content_withEntries _ _) ?_ hold).trans ?_
    · exact hlie.1
    · exact if_neg (Bool.eq_false_iff.mp hremoval)
  have hremove := @outcome_remove_ok r.id { fleet with
    store := fleet.store.afterWrite.withEntries (entries.insert id.fileName (.file bytes)) } _ _ hgone
  exact ⟨bytes, hbytes, (outcome_bind_ok hsave).trans (outcome_bind_ok (outcome_bind_ok hremove))⟩

end MoveTo

/-- A route stays put and nothing is changed, or it is moved to an identity that is free. -/
theorem outcome_moveOne_cases {r : StoredRoute} {fleet after : Fleet} {entries : Dict Entry}
    {result : Except FleetError RouteId} (hentries : fleet.store.content = .ok entries)
    (hremoval : fleet.store.refusals.removals 0 = false) (hlie : LiesIn fleet.store.root entries r)
    (hlegacy : r.id.isLegacy = true) (h : outcome (moveOne r) fleet = (result, after)) :
    (∃ e, result = .error e ∧ after.store.content = .ok entries ∧ after.store.root = fleet.store.root ∧
      StaysPut fleet.store after.store 0 fleet.tags r e) ∨
    ∃ id tag bytes, result = .ok id ∧ id = RouteId.ofTag r.id.text tag ∧
      Store.IsReachable fleet.store.root id.text ∧ entries.get? id.fileName = none ∧
      bytesOf id.text (r.graph.rename r.id id) = .ok bytes ∧ fleet.store.refusals.writes 0 = false ∧
      after.tags <:+ fleet.tags ∧ after.store = afterMove fleet.store entries r id bytes := by
  have hfresh := outcome_freshId r.id.name fleet
  rw [moveOne, RouteId.name_of_isLegacy hlegacy] at h
  rw [RouteId.name_of_isLegacy hlegacy] at hfresh
  rcases hfirst : firstFree fleet.store r.id.text fleet.tags with ⟨e | id, tags⟩
  · rw [hfirst] at hfresh
    obtain ⟨rfl, rfl⟩ := Prod.mk.inj ((outcome_bind_error hfresh).symm.trans h)
    exact .inl ⟨e, rfl, hentries, rfl, .noIdentity (congrArg Prod.fst hfirst)⟩
  rw [hfirst] at hfresh
  rw [outcome_bind_ok hfresh] at h
  obtain ⟨tag, hid, hfree⟩ := firstFree_ok (congrArg Prod.fst hfirst)
  obtain ⟨hreach, hnone⟩ := (Store.isThere_eq_false_iff hentries).mp hfree
  have htags : tags <:+ fleet.tags := by
    have hsuffix := suffix_firstFree fleet.store r.id.text fleet.tags
    rwa [hfirst] at hsuffix
  -- Whatever is refused, the identity is found again in the store that is left.
  have hagain : ∀ {s : Store}, s.root = fleet.store.root → s.content = fleet.store.content →
      (firstFree s r.id.text fleet.tags).1 = .ok id := fun hroot hcontent => by
    rw [firstFree_congr hroot hcontent, hfirst]
  let found : Fleet := { fleet with tags := tags }
  have hfound : found.store.content = .ok entries := hentries
  by_cases hfit : (r.graph.rename r.id id).isWritable = true
  · cases hwrites : fleet.store.refusals.writes 0 with
    | true =>
      have hrefused := outcome_moveTo_refused hfound hreach hnone hfit hwrites
      obtain ⟨rfl, rfl⟩ := Prod.mk.inj (hrefused.symm.trans h)
      exact .inl ⟨_, rfl, hentries, rfl, .refused (hagain rfl rfl) hwrites⟩
    | false =>
      obtain ⟨bytes, hbytes, hmoved⟩ :=
        outcome_moveTo_granted hfound hreach hnone hfit hlie hwrites hremoval
      obtain ⟨rfl, rfl⟩ := Prod.mk.inj (hmoved.symm.trans h)
      exact .inr ⟨id, tag, bytes, rfl, hid, hreach, hnone, hbytes, rfl, htags, rfl⟩
  · obtain ⟨rfl, rfl⟩ := Prod.mk.inj ((@outcome_moveTo_unwritable r id found hfit).symm.trans h)
    exact .inl ⟨_, rfl, hentries, rfl, .unwritable (hagain rfl rfl) fun hfits =>
      hfit (Graph.isWritable_rename hfits)⟩

/-! ## Moving in turn -/

section InTurn

variable {s mid after : Store} {root : String} {entries : Dict Entry} {r r' : StoredRoute}
variable {rs rest : List StoredRoute}
variable {id : RouteId} {bytes : ByteArray} {moves : List (StoredRoute × RouteId)} {tags left : List Tag}

theorem StaysPut.succ {n : Nat} {e : FleetError}
    (h : StaysPut (afterMove s entries r id bytes) after n tags r' e) :
    StaysPut s after (n + 1) tags r' e := by
  cases h with
  | noIdentity h => exact .noIdentity h
  | unwritable h hunfit => exact .unwritable h hunfit
  | refused h hrefused => exact .refused h hrefused

theorem MovesEnd.nil : MovesEnd s after tags [] [] (.ok []) := by
  refine ⟨fun k hk => absurd hk (Nat.not_lt_zero k), fun pairs hpairs => ⟨rfl, ?_⟩,
    fun e he => nomatch he⟩
  exact (Except.ok.inj hpairs).symm

theorem MovesEnd.stop {e : FleetError} (h : StaysPut s after 0 tags r e) :
    MovesEnd s after tags [] (r :: rs) (.error e) := by
  refine ⟨fun k hk => absurd hk (Nat.not_lt_zero k), fun pairs hpairs => (nomatch hpairs), ?_⟩
  rintro e' ⟨⟩
  exact ⟨r, rs, tags, rfl, List.suffix_refl _, h⟩

theorem MovesEnd.cons {result : Except FleetError (List (RouteId × RouteId))}
    (hwrites : s.refusals.writes 0 = false) (hleft : left <:+ tags)
    (h : MovesEnd (afterMove s entries r id bytes) after left moves rest result) :
    MovesEnd s after tags ((r, id) :: moves) rest (result.map ((r.id, id) :: ·)) := by
  refine ⟨fun k hk => ?_, fun pairs hpairs => ?_, fun e he => ?_⟩
  · cases k with
    | zero => exact hwrites
    | succ k => exact h.granted k (Nat.lt_of_succ_lt_succ hk)
  · cases result with
    | error e => exact nomatch hpairs
    | ok pairs' =>
      obtain rfl := Except.ok.inj hpairs
      obtain ⟨hrest, rfl⟩ := h.done pairs' rfl
      exact ⟨hrest, rfl⟩
  · cases result with
    | ok pairs' => exact nomatch he
    | error e' =>
      obtain rfl := Except.error.inj he
      obtain ⟨r', rest', left', hrest, hleft', hstays⟩ := h.stopped e' rfl
      exact ⟨r', rest', left', hrest, hleft'.trans hleft, hstays.succ⟩

/-- Other legacy routes lie where they lay after one is moved. -/
theorem LiesIn.move (h : LiesIn root entries r') (hlegacy : r'.id.isLegacy = true)
    (htwoParts : id.isLegacy = false) (hne : r'.id ≠ r.id) :
    LiesIn root ((entries.insert id.fileName (.file bytes)).erase r.id.fileName) r' := by
  obtain ⟨hreach, old, hold⟩ := h
  refine ⟨hreach, old, ?_⟩
  rw [get?_move, if_neg fun hfile => hne (RouteId.fileName_inj hfile),
    if_neg (fileName_ne hlegacy htwoParts), hold]

/-- An identity under which something lies is not empty. -/
theorem LiesIn.ne_empty (h : LiesIn root entries r) : r.id.text ≠ "" :=
  RouteId.ne_empty_of_isPlainKey h.1.isPlainKey

end InTurn

/-- Legacy routes that lie in the folder are moved in turn. -/
theorem movesEnd_moveEach {rs : List StoredRoute} {fleet after : Fleet} {entries : Dict Entry}
    {result : Except FleetError (List (RouteId × RouteId))}
    (hentries : fleet.store.content = .ok entries)
    (hremovals : ∀ k, fleet.store.refusals.removals k = false)
    (hrs : ∀ r ∈ rs, LiesIn fleet.store.root entries r ∧ r.id.isLegacy = true)
    (hids : (rs.map (·.id)).Nodup) (h : outcome (moveEach rs) fleet = (result, after)) :
    ∃ entries' moves rest, after.store.content = .ok entries' ∧ after.store.root = fleet.store.root ∧
        rs = moves.map (·.1) ++ rest ∧ Moved fleet.store.root entries entries' moves ∧
        MovesEnd fleet.store after.store fleet.tags moves rest result := by
  induction rs generalizing fleet entries result after with
  | nil =>
    obtain ⟨rfl, rfl⟩ := Prod.mk.inj h
    exact ⟨entries, [], [], hentries, rfl, rfl, .nil, .nil⟩
  | cons r rs ih =>
    rw [List.forall_mem_cons] at hrs
    rw [List.map_cons, List.nodup_cons] at hids
    rw [moveEach_cons] at h
    rcases outcome_bind_cases h with ⟨e, hone, rfl⟩ | ⟨id, mid, hone, hrest⟩
    · rcases outcome_moveOne_cases hentries (hremovals 0) hrs.1.1 hrs.1.2 hone with
        ⟨e', he, hcontent, hroot, hstays⟩ | ⟨id, tag, bytes, hok, -⟩
      · obtain rfl := Except.error.inj he
        exact ⟨entries, [], r :: rs, hcontent, hroot, rfl, .nil, .stop hstays⟩
      · exact nomatch hok
    rcases outcome_moveOne_cases hentries (hremovals 0) hrs.1.1 hrs.1.2 hone with
      ⟨e', he, -⟩ | ⟨id', tag, bytes, hok, hid, hreach, hfree, hbytes, hwrites, htags, hstore⟩
    · exact nomatch he
    obtain rfl := Except.ok.inj hok
    have htwoParts : id.isLegacy = false := hid ▸ RouteId.isLegacy_ofTag hrs.1.1.ne_empty tag
    have hne : ∀ r' ∈ rs, r'.id ≠ r.id := fun r' hr' heq => hids.1 (heq ▸ List.mem_map_of_mem hr')
    have hsame : mid.store.root = fleet.store.root := hstore ▸ rfl
    have hlie : ∀ r' ∈ rs, LiesIn mid.store.root
        ((entries.insert id.fileName (.file bytes)).erase r.id.fileName) r' ∧ r'.id.isLegacy = true :=
      fun r' hr' => hsame ▸
        ⟨(hrs.2 r' hr').1.move (hrs.2 r' hr').2 htwoParts (hne r' hr'), (hrs.2 r' hr').2⟩
    rw [outcome_bind_pure] at hrest
    obtain ⟨rfl, rfl⟩ := Prod.mk.inj hrest
    have hcontent : mid.store.content =
        .ok ((entries.insert id.fileName (.file bytes)).erase r.id.fileName) := hstore ▸ rfl
    have hleft : ∀ k, mid.store.refusals.removals k = false := fun k => hstore ▸ hremovals (k + 1)
    obtain ⟨entries', moves, rest, hafter, hroot, hsplit, hmoved, hends⟩ :=
      ih hcontent hleft hlie hids.2 rfl
    rw [hsame] at hmoved
    refine ⟨entries', (r, id) :: moves, rest, hafter, hroot.trans hsame, ?_, ?_, ?_⟩
    · rw [hsplit]
      rfl
    · exact hmoved.cons hrs.1.2 hid hreach hfree hrs.1.1.ne_empty hbytes
    · rw [hstore] at hends
      exact hends.cons hwrites htags

/-- A route that is moved lies under a new identity and nowhere else, whether it still lay under the old
one or not. -/
theorem move_of_moveOne {r : StoredRoute} {fleet after : Fleet} {entries : Dict Entry} {id : RouteId}
    (hentries : fleet.store.content = .ok entries) (hlegacy : r.id.isLegacy = true)
    (h : outcome (moveOne r) fleet = (.ok id, after)) :
    ∃ tag bytes, id = RouteId.ofTag r.id.text tag ∧ Store.IsReachable fleet.store.root id.text ∧
      entries.get? id.fileName = none ∧ bytesOf id.text (r.graph.rename r.id id) = .ok bytes ∧
      after.store = afterMove fleet.store entries r id bytes := by
  obtain ⟨id', mid, hid, hrest⟩ := outcome_bind_eq_ok h
  obtain ⟨hfirst, rfl⟩ := Prod.mk.inj ((outcome_freshId _ _).symm.trans hid)
  obtain ⟨tag, rfl, hfree⟩ := firstFree_ok hfirst
  obtain ⟨hreach, hnone⟩ := (Store.isThere_eq_false_iff hentries).mp hfree
  obtain ⟨_, written, hsaved, hrest⟩ := outcome_bind_eq_ok hrest
  obtain ⟨entries', bytes, hentries', -, hbytes, rfl⟩ := outcome_save_eq_ok hsaved
  obtain rfl := Except.ok.inj (hentries.symm.trans hentries')
  obtain ⟨_, removed, hremoved, hlast⟩ := outcome_bind_eq_ok hrest
  obtain ⟨_, removed', hremoved', hdiscard⟩ := outcome_bind_eq_ok hremoved
  obtain ⟨-, rfl⟩ := Prod.mk.inj hdiscard
  obtain ⟨hresult, rfl⟩ := Prod.mk.inj hlast
  obtain rfl := Except.ok.inj hresult
  obtain rfl := outcome_remove_eq_ok (Store.content_withEntries _ _) hremoved'
  rw [RouteId.name_of_isLegacy hlegacy] at hreach hnone hbytes ⊢
  exact ⟨tag, bytes, rfl, hreach, hnone, hbytes, rfl⟩

/-- Legacy routes that are all moved are moved as they should be, also if one stands there twice. -/
theorem moved_of_moveEach {rs : List StoredRoute} {fleet after : Fleet} {entries : Dict Entry}
    {pairs : List (RouteId × RouteId)} (hentries : fleet.store.content = .ok entries)
    (hrs : ∀ r ∈ rs, r.id.text ≠ "" ∧ r.id.isLegacy = true)
    (h : outcome (moveEach rs) fleet = (.ok pairs, after)) : ∃ entries' moves,
      after.store.content = .ok entries' ∧ after.store.root = fleet.store.root ∧
        moves.map (·.1) = rs ∧ pairs = (moves.map fun m => (m.1.id, m.2)) ∧
        Moved fleet.store.root entries entries' moves := by
  induction rs generalizing fleet entries pairs after with
  | nil =>
    obtain ⟨⟨⟩, rfl⟩ := Prod.mk.inj h
    exact ⟨entries, [], hentries, rfl, rfl, rfl, .nil⟩
  | cons r rs ih =>
    rw [List.forall_mem_cons] at hrs
    rw [moveEach_cons] at h
    obtain ⟨id, mid, hone, hrest⟩ := outcome_bind_eq_ok h
    obtain ⟨pairs', last, hall, hpure⟩ := outcome_bind_eq_ok hrest
    obtain ⟨⟨⟩, rfl⟩ := Prod.mk.inj hpure
    obtain ⟨tag, bytes, hid, hreach, hfree, hbytes, hstore⟩ := move_of_moveOne hentries hrs.1.2 hone
    have hcontent : mid.store.content =
        .ok ((entries.insert id.fileName (.file bytes)).erase r.id.fileName) := hstore ▸ rfl
    have hsame : mid.store.root = fleet.store.root := hstore ▸ rfl
    obtain ⟨entries', moves, hafter, hroot, rfl, rfl, hmoved⟩ := ih hcontent hrs.2 hall
    rw [hsame] at hmoved
    exact ⟨entries', (r, id) :: moves, hafter, hroot.trans hsame, rfl, rfl,
      hmoved.cons hrs.1.2 hid hreach hfree hrs.1.1 hbytes⟩

/-! ## Moving all -/

/-- Whether no legacy route is left in a fleet in which some routes were moved; and moving them again
changes nothing if and only if those that were moved and are listed can be read. Those whose tags are
kept can. -/
structure Settled (fleet : Fleet) (ids : List RouteId) (moves : List (StoredRoute × RouteId)) : Prop where
  twoParts : ∀ r, r.id ∈ ids → IsStored fleet.store r → r.id.isLegacy = false
  again : outcome migrate fleet = (.ok [], fleet) ↔
    ∀ m ∈ moves, m.2 ∈ ids → ∃ g, IsStored fleet.store { id := m.2, graph := g }
  readBack : ∀ m ∈ moves, m.1.graph.toValue.allTags Yaml.isKeptTag = true →
    IsStored fleet.store { id := m.2, graph := m.1.graph.rename m.1.id m.2 }

/-- What is listed in the end is a new identity, or was listed before and not moved. -/
theorem Moved.isListed {root : String} {before after : Dict Entry} {moves : List (StoredRoute × RouteId)}
    (h : Moved root before after moves) {file : String} {id : RouteId}
    (hlisted : Store.IsListed root after file id) :
    (∃ m ∈ moves, file = m.2.fileName ∧ id = m.2) ∨
      (Store.IsListed root before file id ∧ ∀ m ∈ moves, file ≠ m.1.id.fileName) := by
  obtain ⟨bytes, hfile, hroute⟩ := hlisted
  by_cases hnew : ∃ m ∈ moves, file = m.2.fileName
  · obtain ⟨m, hm, rfl⟩ := hnew
    exact .inl ⟨m, hm, rfl, Store.eq_of_routeOf?_fileName (h.free m hm).1.isPlainKey hroute⟩
  have hold : ∀ m ∈ moves, file ≠ m.1.id.fileName := by
    rintro m hm rfl
    exact nomatch (h.gone m hm).symm.trans hfile
  refine .inr ⟨⟨bytes, ?_, hroute⟩, hold⟩
  rw [← h.kept file fun m hm => ⟨hold m hm, fun heq => hnew ⟨m, hm, heq⟩⟩, hfile]

section Settling

variable {fleet after : Fleet} {ids ids' : List RouteId} {rs : List StoredRoute}
variable {entries entries' : Dict Entry} {moves : List (StoredRoute × RouteId)}

/-- What is listed in the end and is no new identity was listed before. -/
theorem Moved.mem_list (h : Moved fleet.store.root entries entries' moves)
    (hroot : after.store.root = fleet.store.root) (hentries : fleet.store.content = .ok entries)
    (hlist : fleet.store.list = .ok ids) (hentries' : after.store.content = .ok entries')
    (hlist' : after.store.list = .ok ids') {id : RouteId} (hid : id ∈ ids')
    (hold : ∀ m ∈ moves, id ≠ m.2) : id ∈ ids := by
  obtain ⟨file, hfile⟩ := (Store.mem_list_iff hentries' hlist').mp hid
  rw [hroot] at hfile
  rcases h.isListed hfile with ⟨m, hm, -, heq⟩ | ⟨hlisted, -⟩
  · exact absurd heq (hold m hm)
  · exact (Store.mem_list_iff hentries hlist).mpr ⟨file, hlisted⟩

/-- No legacy route is left that can be read. -/
theorem Moved.twoParts (h : Moved fleet.store.root entries entries' moves)
    (hroot : after.store.root = fleet.store.root) (hloaded : IsLoaded fleet.store ids rs)
    (hall : rs.filter (·.id.isLegacy) = moves.map (·.1)) (hentries : fleet.store.content = .ok entries)
    (hlist : fleet.store.list = .ok ids) (hentries' : after.store.content = .ok entries')
    (hlist' : after.store.list = .ok ids') {r : StoredRoute} (hr : r.id ∈ ids')
    (hstored : IsStored after.store r) : r.id.isLegacy = false := by
  by_contra hlegacy
  replace hlegacy : r.id.isLegacy = true := Bool.eq_true_of_not_eq_false hlegacy
  obtain ⟨hreach, bytes, hbytes⟩ := LiesIn.of_isStored hentries' hstored
  rw [hroot] at hreach
  have hold : ∀ m ∈ moves, m.1.id ≠ r.id := fun m hm heq => by
    have hgone := h.gone m hm
    rw [heq, hbytes] at hgone
    exact nomatch hgone
  -- It was listed before, and lay where it lies.
  have hbefore : r.id ∈ ids := by
    refine h.mem_list hroot hentries hlist hentries' hlist' hr fun m hm heq => ?_
    have htwoParts := (h.named m hm).2.1
    rw [← heq, hlegacy] at htwoParts
    exact nomatch htwoParts
  have hread : fleet.store.read r.id.text = .ok (some bytes) := by
    rw [Store.read_eq_ok_iff hentries]
    exact ⟨hreach, (h.spared hlegacy hold).symm.trans hbytes⟩
  -- So it was loaded, and moved with the others.
  have hmem : r.id ∈ rs.map (·.id) := by
    by_contra hnot
    exact nomatch hread.symm.trans (hloaded.gone r.id hbefore hnot)
  obtain ⟨r', hr', hid⟩ := List.mem_map.mp hmem
  have hmoved : r' ∈ moves.map (·.1) := hall ▸ List.mem_filter.mpr ⟨hr', hid ▸ hlegacy⟩
  obtain ⟨m, hm, rfl⟩ := List.mem_map.mp hmoved
  exact hold m hm hid

/-- All routes can be read in the end if and only if those can that were moved and are listed. -/
theorem Moved.allRead_iff (h : Moved fleet.store.root entries entries' moves)
    (hroot : after.store.root = fleet.store.root) (hread : AllRead fleet.store ids)
    (hmoves : ∀ m ∈ moves, Store.IsReachable fleet.store.root m.1.id.text)
    (hentries : fleet.store.content = .ok entries)
    (hlist : fleet.store.list = .ok ids) (hentries' : after.store.content = .ok entries')
    (hlist' : after.store.list = .ok ids') : AllRead after.store ids' ↔
      ∀ m ∈ moves, m.2 ∈ ids' → ∃ g, IsStored after.store { id := m.2, graph := g } := by
  constructor
  · intro hall m hm hid
    rcases hall m.2 hid with hnone | hstored
    · obtain ⟨bytes, -, hbytes⟩ := h.moved m hm
      have hthere := (Store.read_eq_ok_iff hentries').mpr ⟨hroot ▸ (h.free m hm).1, hbytes⟩
      exact nomatch hthere.symm.trans hnone
    · exact hstored
  · intro hstored id hid
    by_cases hnew : ∃ m ∈ moves, id = m.2
    · obtain ⟨m, hm, rfl⟩ := hnew
      exact .inr (hstored m hm hid)
    by_cases hold : ∃ m ∈ moves, id = m.1.id
    · -- What was moved is not read under its old identity.
      obtain ⟨m, hm, rfl⟩ := hold
      exact .inl ((Store.read_eq_none_iff hentries').mpr ⟨hroot ▸ hmoves m hm, h.gone m hm⟩)
    -- All else is read as before.
    have hbefore : id ∈ ids :=
      h.mem_list hroot hentries hlist hentries' hlist' hid fun m hm heq => hnew ⟨m, hm, heq⟩
    have hsame : ∀ {found}, after.store.read id.text = .ok found ↔ fleet.store.read id.text = .ok found :=
      Store.read_eq_ok_congr hroot hentries' hentries (h.kept _ fun m hm =>
        ⟨fun hfile => hold ⟨m, hm, RouteId.fileName_inj hfile⟩,
          fun hfile => hnew ⟨m, hm, RouteId.fileName_inj hfile⟩⟩)
    rcases hread id hbefore with hnone | ⟨g, bytes, hbytes, hgraph⟩
    · exact .inl (hsame.mpr hnone)
    · exact .inr ⟨g, bytes, hsame.mpr hbytes, hgraph⟩

end Settling

/-- The legacy routes that are loaded lie in the folder, each under its own identity. -/
theorem IsLoaded.legacy {s : Store} {entries : Dict Entry} {ids : List RouteId} {rs : List StoredRoute}
    (h : IsLoaded s ids rs) (hentries : s.content = .ok entries) :
    ∀ r ∈ rs.filter (·.id.isLegacy), LiesIn s.root entries r ∧ r.id.isLegacy = true := by
  intro r hr
  obtain ⟨hmem, hlegacy⟩ := List.mem_filter.mp hr
  exact ⟨.of_isStored hentries (h.stored r hmem), hlegacy⟩

theorem IsLoaded.nodup_legacy {s : Store} {ids : List RouteId} {rs : List StoredRoute}
    (h : IsLoaded s ids rs) (hids : ids.Nodup) : ((rs.filter (·.id.isLegacy)).map (·.id)).Nodup :=
  (hids.sublist h.sublist).sublist (List.filter_sublist.map _)

theorem outcome_migrate_of_list {fleet : Fleet} {rs : List StoredRoute}
    (h : outcome list fleet = (.ok rs, fleet)) :
    outcome migrate fleet = outcome (moveEach (rs.filter (·.id.isLegacy))) fleet := outcome_bind_ok h

/-- If all legacy routes are moved, then as they should be. -/
theorem moved_of_migrate {fleet after : Fleet} {pairs : List (RouteId × RouteId)}
    (h : outcome migrate fleet = (.ok pairs, after)) : ∃ rs ids entries entries' moves,
      IsLoaded fleet.store ids rs ∧ fleet.store.list = .ok ids ∧ fleet.store.content = .ok entries ∧
        after.store.content = .ok entries' ∧ after.store.root = fleet.store.root ∧
        rs.filter (·.id.isLegacy) = moves.map (·.1) ∧ pairs = (moves.map fun m => (m.1.id, m.2)) ∧
        Moved fleet.store.root entries entries' moves := by
  obtain ⟨rs, mid, hall, hmove⟩ := outcome_bind_eq_ok h
  obtain ⟨rfl, entries, ids, hentries, hids, hloaded⟩ := isLoaded_of_outcome_list hall
  have hlegacy := hloaded.legacy hentries
  obtain ⟨entries', moves, hentries', hroot, hmoves, hpairs, hmoved⟩ :=
    moved_of_moveEach hentries (fun r hr => ⟨(hlegacy r hr).1.ne_empty, (hlegacy r hr).2⟩) hmove
  exact ⟨rs, ids, entries, entries', moves, hloaded, hids, hentries, hentries', hroot, hmoves.symm, hpairs,
    hmoved⟩

/-- Moving all again changes nothing if and only if all routes can be read. -/
theorem outcome_migrate_iff {fleet : Fleet} {ids : List RouteId} (hlist : fleet.store.list = .ok ids)
    (htwoParts : ∀ r, r.id ∈ ids → IsStored fleet.store r → r.id.isLegacy = false) :
    outcome migrate fleet = (.ok [], fleet) ↔ ¬ SomeUnread fleet ids := by
  constructor
  · intro hagain hunread
    obtain ⟨e, he⟩ := outcome_list_of_someUnread hlist hunread
    have hfail : outcome migrate fleet = (.error e, fleet) := outcome_bind_error he
    exact nomatch hagain.symm.trans hfail
  · intro hread
    obtain ⟨rs, hrs, hloaded⟩ := outcome_list_of_not_someUnread hlist hread
    have hnone : rs.filter (·.id.isLegacy) = [] := by
      rw [List.filter_eq_nil_iff]
      intro r hr
      have hmem := hloaded.sublist.subset (List.mem_map_of_mem hr)
      exact Bool.eq_false_iff.mp (htwoParts r hmem (hloaded.stored r hr))
    rw [outcome_migrate_of_list hrs, hnone]
    rfl

/-- How moving all legacy routes goes, whatever the folder holds, chance brings and the system refuses to
write. If one route cannot be read nothing is changed. Else the routes are moved in turn; those whose
turn has not come, and those of two parts, are as they were. -/
theorem migrates {fleet last : Fleet} {ids : List RouteId}
    {result : Except FleetError (List (RouteId × RouteId))} (hlist : fleet.store.list = .ok ids)
    (hids : ids.Nodup) (hremovals : ∀ k, fleet.store.refusals.removals k = false)
    (houtcome : outcome migrate fleet = (result, last)) :
    (SomeUnread fleet ids → (∃ e, result = .error e) ∧ last = fleet) ∧
    (¬ SomeUnread fleet ids → ∃ rs before after moves rest, IsLoaded fleet.store ids rs ∧
      fleet.store.content = .ok before ∧ last.store.content = .ok after ∧
      rs.filter (·.id.isLegacy) = moves.map (·.1) ++ rest ∧ Moved fleet.store.root before after moves ∧
      (∀ r ∈ rest, after.get? r.id.fileName = before.get? r.id.fileName) ∧
      (∀ (id : RouteId) e, id.isLegacy = false → before.get? id.fileName = some e →
        after.get? id.fileName = some e) ∧
      MovesEnd fleet.store last.store fleet.tags moves rest result ∧
      (rest = [] → ∃ ids', last.store.list = .ok ids' ∧ Settled last ids' moves)) := by
  refine ⟨fun hunread => ?_, fun hread => ?_⟩
  · obtain ⟨e, he⟩ := outcome_list_of_someUnread hlist hunread
    have hfail : outcome migrate fleet = (.error e, fleet) := outcome_bind_error he
    obtain ⟨rfl, rfl⟩ := Prod.mk.inj (hfail.symm.trans houtcome)
    exact ⟨⟨e, rfl⟩, rfl⟩
  obtain ⟨rs, hrs, hloaded⟩ := outcome_list_of_not_someUnread hlist hread
  obtain ⟨before, hbefore⟩ := Store.exists_entries_of_list hlist
  have hlegacy := hloaded.legacy hbefore
  have hnodup := hloaded.nodup_legacy hids
  rw [outcome_migrate_of_list hrs] at houtcome
  obtain ⟨after, moves, rest, hafter, hroot, hsplit, hmoved, hends⟩ :=
    movesEnd_moveEach hbefore hremovals hlegacy hnodup houtcome
  refine ⟨rs, before, after, moves, rest, hloaded, hbefore, hafter, hsplit, hmoved, ?_, ?_, hends, ?_⟩
  · intro r hr
    rw [hsplit, List.map_append, List.nodup_append] at hnodup
    have hmem : r ∈ rs.filter (·.id.isLegacy) := hsplit ▸ List.mem_append_right _ hr
    refine hmoved.spared (hlegacy r hmem).2 fun m hm => ?_
    exact hnodup.2.2 _ (List.mem_map_of_mem (List.mem_map_of_mem hm)) _ (List.mem_map_of_mem hr)
  · intro id e htwoParts he
    rw [← he]
    refine hmoved.kept _ fun m hm =>
      ⟨(fileName_ne (hmoved.legacy m hm).1 htwoParts).symm, fun hfile => ?_⟩
    rw [hfile, (hmoved.free m hm).2] at he
    exact nomatch he
  · rintro rfl
    rw [List.append_nil] at hsplit
    have hold : ∀ m ∈ moves, m.1 ∈ rs.filter (·.id.isLegacy) := fun m hm =>
      hsplit ▸ List.mem_map_of_mem hm
    have hlist' := Store.list_eq hafter
    have htwoParts := fun r hr => hmoved.twoParts hroot hloaded hsplit hbefore hlist hafter hlist' (r := r) hr
    refine ⟨_, hlist', htwoParts, ?_, fun m hm htags => ?_⟩
    · rw [outcome_migrate_iff hlist' htwoParts, not_someUnread_iff]
      exact hmoved.allRead_iff hroot (not_someUnread_iff.mp hread) (fun m hm => (hlegacy _ (hold m hm)).1.1)
        hbefore hlist hafter hlist'
    · obtain ⟨bytes, hbytes, hfile⟩ := hmoved.moved m hm
      obtain ⟨old, -, hgraph⟩ := hloaded.stored _ (List.mem_filter.mp (hold m hm)).1
      exact ⟨bytes, (Store.read_eq_ok_iff hafter).mpr ⟨hroot ▸ (hmoved.free m hm).1, hfile⟩,
        graphOf_bytesOf_rename hgraph htags hbytes⟩

/-! ## A tag that is not kept -/

/-- An object with a middleware that is kept as it is, of which a tag spells a comma. -/
def commaTagText : String := "http:\n  middlewares:\n    m:\n      k: !a%2Cb x\n"

/-- A fleet of that object, under a legacy identity. -/
def commaTag : Fleet where
  store :=
    { root := "conf"
      content := .ok (Dict.ofList [("blog.yaml", .file commaTagText.toUTF8)]) }
  tags := [Tag.ofNat 1]
  compiler := { certResolver := "le", hasher := Hasher.marking, hostIp := none }

theorem not_someUnread_commaTag : ¬ SomeUnread commaTag [⟨"blog"⟩] := by
  rintro ⟨id, hid, e, he⟩
  obtain rfl := List.mem_singleton.mp hid
  have hsome : (outcome (load ⟨"blog"⟩) commaTag).1.toOption.isSome = true := by decide +kernel
  rw [he] at hsome
  exact nomatch hsome

/-- It is moved, and then it cannot be read. -/
theorem migrates_commaTag : commaTag.store.list = .ok [⟨"blog"⟩] ∧
    (outcome migrate commaTag).1.toOption = some [(⟨"blog"⟩, ⟨"blog_00000001"⟩)] ∧
    outcome migrate (outcome migrate commaTag).2 ≠ (.ok [], (outcome migrate commaTag).2) := by
  have hlist : commaTag.store.list = .ok [⟨"blog"⟩] := by decide +kernel
  have hmoved : (outcome migrate commaTag).1.toOption = some [(⟨"blog"⟩, ⟨"blog_00000001"⟩)] := by
    decide +kernel
  have hids : (outcome migrate commaTag).2.store.list = .ok [⟨"blog_00000001"⟩] := by decide +kernel
  have hlost : ((outcome migrate commaTag).2.store.read "blog_00000001").toOption.bind
      (·.bind Graph.ofBytes?) = none := by decide +kernel
  refine ⟨hlist, hmoved, ?_⟩
  rcases houtcome : outcome migrate commaTag with ⟨e | pairs, last⟩
  · rw [houtcome] at hmoved
    exact nomatch hmoved
  rw [houtcome] at hmoved hids hlost
  intro hagain
  obtain ⟨rs, before, after, moves, rest, -, -, -, -, -, -, -, hends, hsettled⟩ :=
    (migrates hlist (List.nodup_singleton _) (fun _ => rfl) houtcome).2 not_someUnread_commaTag
  obtain ⟨hrest, hpairs⟩ := hends.done pairs rfl
  obtain ⟨ids', hlist', hsettles⟩ := hsettled hrest
  obtain rfl := Except.ok.inj (hlist'.symm.trans hids)
  obtain rfl := Option.some.inj hmoved
  obtain ⟨m, rfl, hm⟩ := List.map_eq_singleton_iff.mp hpairs.symm
  have hnew : m.2 = ⟨"blog_00000001"⟩ := congrArg Prod.snd hm
  obtain ⟨g, bytes, hfile, hgraph⟩ :=
    hsettles.again.mp hagain m List.mem_cons_self (hnew ▸ List.mem_cons_self)
  simp only [hnew] at hfile hgraph
  rw [hfile] at hlost
  exact nomatch hlost.symm.trans (graphOf_eq_ok_iff.mp hgraph)

end Fleet

end RouteFleet
