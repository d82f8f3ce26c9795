import RouteFleet.Proofs.Fleet.Edit
import RouteFleet.Proofs.Fleet.Migrate
import RouteFleet.Proofs.Fleet.Preserve
import RouteFleet.Proofs.Graph.Edit

/-! # Where listed routes come from

After an operation on all routes each route that is listed comes of one that was listed before
(`Fleet.Descends`): it is that one as it was edited, written and read back (`Fleet.descends_edit`), or as it
was moved, if it was to be (`Fleet.descends_migrate`).

Such an operation may write what cannot be read. It does not where all tags are kept.
-/

namespace RouteFleet

namespace Fleet

/-! ## Listed routes -/

/-- Whether a route is listed, and stored as its graph says. -/
def Lists (s : Store) (r : StoredRoute) : Prop :=
  (∃ ids, s.list = .ok ids ∧ r.id ∈ ids) ∧ IsStored s r

/-- Whether the tags of all listed routes are read back as they were before they were written. -/
def KeepsTags (s : Store) : Prop := ∀ r, Lists s r → r.graph.toValue.allTags Yaml.isKeptTag = true

/-- Whether each route that is listed after something comes, as `P` says, of one that was listed before.
Where all tags are kept, all routes can be read afterwards, and their tags are kept again. -/
structure Descends (P : StoredRoute → StoredRoute → Prop) (before after : Store) : Prop where
  origin : ∀ r', Lists after r' → ∃ r, Lists before r ∧ P r r'
  allRead : KeepsTags before → ∀ ids, after.list = .ok ids → AllRead after ids
  keepsTags : KeepsTags before → KeepsTags after

/-- What comes of what comes of something comes of it. -/
theorem Descends.trans {P Q : StoredRoute → StoredRoute → Prop} {s t u : Store} (h : Descends P s t)
    (h' : Descends Q t u) : Descends (fun r r'' => ∃ r', P r r' ∧ Q r' r'') s u := by
  refine ⟨fun r'' hr'' => ?_, fun hkept => h'.allRead (h.keepsTags hkept),
    fun hkept => h'.keepsTags (h.keepsTags hkept)⟩
  obtain ⟨r', hr', hlater⟩ := h'.origin r'' hr''
  obtain ⟨r, hr, hearlier⟩ := h.origin r' hr'
  exact ⟨r, hr, r', hearlier, hlater⟩

theorem Descends.mono {P Q : StoredRoute → StoredRoute → Prop} {s t : Store} (h : Descends P s t)
    (hPQ : ∀ r r', P r r' → Q r r') : Descends Q s t := by
  refine ⟨fun r' hr' => ?_, h.allRead, h.keepsTags⟩
  obtain ⟨r, hr, hsays⟩ := h.origin r' hr'
  exact ⟨r, hr, hPQ r r' hsays⟩

section Listed

variable {s t : Store} {r : StoredRoute} {ids : List RouteId} {rs : List StoredRoute}

theorem Lists.mem (h : Lists s r) (hlist : s.list = .ok ids) : r.id ∈ ids := by
  obtain ⟨⟨ids', hlist', hid⟩, -⟩ := h
  obtain rfl := Except.ok.inj (hlist.symm.trans hlist')
  exact hid

/-- The listed routes are those that are loaded together. -/
theorem IsLoaded.lists_iff (h : IsLoaded s ids rs) (hlist : s.list = .ok ids) : Lists s r ↔ r ∈ rs := by
  constructor
  · intro hlists
    have hmem : r.id ∈ rs.map (·.id) := by
      by_contra hnot
      obtain ⟨bytes, hbytes, -⟩ := hlists.2
      exact nomatch hbytes.symm.trans (h.gone r.id (hlists.mem hlist) hnot)
    obtain ⟨r', hr', hid⟩ := List.mem_map.mp hmem
    exact (h.stored r' hr').eq hlists.2 hid ▸ hr'
  · intro hr
    exact ⟨⟨ids, hlist, h.sublist.subset (List.mem_map_of_mem hr)⟩, h.stored r hr⟩

theorem IsStored.sound (h : IsStored s r) : r.graph.Sound Graph.extraDepth := by
  obtain ⟨bytes, -, hgraph⟩ := h
  exact sound_of_graphOf hgraph

/-- What is listed and stored depends on the folder's path and on what lies in it. -/
theorem Lists.of_content {entries : Dict Entry} (hroot : t.root = s.root) (hs : s.content = .ok entries)
    (ht : t.content = .ok entries) (h : Lists s r) : Lists t r := by
  obtain ⟨⟨ids, hlist, hid⟩, bytes, hbytes, hgraph⟩ := h
  have hsame : t.list = .ok ids := (Store.list_congr hroot ht hs fun _ => rfl).trans hlist
  exact ⟨⟨_, hsame, hid⟩, bytes, (Store.read_eq_ok_congr hroot.symm hs ht rfl).mp hbytes, hgraph⟩

/-- What is listed after an object was written is that object, or was listed before. -/
theorem Lists.of_insert {entries : Dict Entry} {id : RouteId} {bytes : ByteArray}
    (hroot : t.root = s.root) (hs : s.content = .ok entries)
    (ht : t.content = .ok (entries.insert id.fileName (.file bytes)))
    (hkey : Store.isPlainKey id.text = true) (h : Lists t r) :
    (r.id = id ∧ graphOf id.text bytes = .ok r.graph) ∨ Lists s r := by
  obtain ⟨⟨ids, hlist, hid⟩, written, hread, hgraph⟩ := h
  by_cases hsame : r.id = id
  · have hfile := ((Store.read_eq_ok_iff ht).mp hread).2
    subst hsame
    rw [Dict.get?_insert] at hfile
    obtain rfl := Entry.file.inj (Option.some.inj ((if_pos rfl).symm.trans hfile))
    exact .inl ⟨rfl, hgraph⟩
  · obtain ⟨file, hlisted⟩ := (Store.mem_list_iff ht hlist).mp hid
    rw [Store.isListed_insert, hroot] at hlisted
    split at hlisted
    · exact absurd (Store.eq_of_routeOf?_fileName hkey hlisted) hsame
    have hlist' := Store.list_eq hs
    refine .inr ⟨⟨_, hlist', (Store.mem_list_iff hs hlist').mpr ⟨file, hlisted⟩⟩, written, ?_, hgraph⟩
    have hfile : r.id.fileName ≠ id.fileName := fun hfile => hsame (RouteId.fileName_inj hfile)
    exact (Store.read_eq_ok_congr hroot ht hs ((Dict.get?_insert ..).trans (if_neg hfile))).mp hread

/-- What is listed after something was removed was listed before. -/
theorem Lists.of_erase {entries : Dict Entry} {file : String} (hroot : t.root = s.root)
    (hs : s.content = .ok entries) (ht : t.content = .ok (entries.erase file)) (h : Lists t r) :
    Lists s r := by
  obtain ⟨⟨ids, hlist, hid⟩, bytes, hread, hgraph⟩ := h
  obtain ⟨hreach, hfile⟩ := (Store.read_eq_ok_iff ht).mp hread
  obtain ⟨file', hlisted⟩ := (Store.mem_list_iff ht hlist).mp hid
  rw [hroot] at hreach hlisted
  have hlist' := Store.list_eq hs
  refine ⟨⟨_, hlist', (Store.mem_list_iff hs hlist').mpr ⟨file', (Store.isListed_erase.mp hlisted).2⟩⟩,
    bytes, (Store.read_eq_ok_iff hs).mpr ⟨hreach, Dict.get?_of_get?_erase hfile⟩, hgraph⟩

theorem AllRead.of_content {entries : Dict Entry} (hroot : t.root = s.root) (hs : s.content = .ok entries)
    (ht : t.content = .ok entries) (h : AllRead s ids) : AllRead t ids := by
  intro id hid
  rcases h id hid with hnone | ⟨g, bytes, hbytes, hgraph⟩
  · exact .inl ((Store.read_eq_ok_congr hroot.symm hs ht rfl).mp hnone)
  · exact .inr ⟨g, bytes, (Store.read_eq_ok_congr hroot.symm hs ht rfl).mp hbytes, hgraph⟩

/-- What is stored for a graph is that graph read back. -/
theorem IsStored.rereadAs (h : IsStored s r) {g : Graph} {bytes : ByteArray}
    (hsound : g.Sound Graph.extraDepth) (hwrite : bytesOf r.id.text g = .ok bytes)
    (hread : s.read r.id.text = .ok (some bytes)) : g.RereadAs r.graph := by
  obtain ⟨bytes', hbytes', hgraph⟩ := h
  obtain rfl := Option.some.inj (Except.ok.inj (hread.symm.trans hbytes'))
  exact rereadAs_of_graphOf hsound hwrite hgraph

end Listed

/-! ## Editing -/

section Editing

variable {fleet after : Fleet} {change : Graph → Graph} {rs : List StoredRoute} {ids ids' : List RouteId}
variable {entries entries' : Dict Entry}

/-- An edit changes nothing about which routes are listed. -/
theorem Rewritten.isListed_iff (h : Rewritten change (changed change rs) entries entries') {root : String}
    (hlie : ∀ r ∈ rs, LiesIn root entries r) {file : String} {id : RouteId} :
    Store.IsListed root entries' file id ↔ Store.IsListed root entries file id := by
  by_cases hdone : ∃ r ∈ changed change rs, file = r.id.fileName
  · obtain ⟨r, hr, rfl⟩ := hdone
    obtain ⟨bytes, -, hbytes⟩ := h.edited r hr
    obtain ⟨-, old, hold⟩ := hlie r ((changed_sublist change rs).subset hr)
    constructor
    · rintro ⟨_, -, hroute⟩
      exact ⟨old, hold, hroute⟩
    · rintro ⟨_, -, hroute⟩
      exact ⟨bytes, hbytes, hroute⟩
  · rw [Store.IsListed, Store.IsListed, h.kept file fun r hr hfile => hdone ⟨r, hr, hfile⟩]

/-- What is read after an edit is what the edit made, or what was read before. -/
theorem Rewritten.read_cases (h : Rewritten change (changed change rs) entries entries')
    (hroot : after.store.root = fleet.store.root) (hlie : ∀ r ∈ rs, LiesIn fleet.store.root entries r)
    (hentries : fleet.store.content = .ok entries)
    (hentries' : after.store.content = .ok entries') (id : RouteId) :
    (∃ r ∈ rs, r.id = id ∧ ∃ bytes, bytesOf id.text (change r.graph) = .ok bytes ∧
      after.store.read id.text = .ok (some bytes)) ∨
    ((∀ r ∈ rs, r.id = id → change r.graph = r.graph) ∧
      ∀ found, after.store.read id.text = .ok found ↔ fleet.store.read id.text = .ok found) := by
  by_cases hdone : ∃ r ∈ changed change rs, r.id = id
  · obtain ⟨r, hr, rfl⟩ := hdone
    have hmem := (changed_sublist change rs).subset hr
    obtain ⟨bytes, hwrite, hbytes⟩ := h.edited r hr
    exact .inl ⟨r, hmem, rfl, bytes, hwrite,
      (Store.read_eq_ok_iff hentries').mpr ⟨hroot ▸ (hlie r hmem).1, hbytes⟩⟩
  · refine .inr ⟨fun r hr hid => ?_, fun found => ?_⟩
    · by_contra hne
      exact hdone ⟨r, List.mem_filter.mpr ⟨hr, decide_eq_true hne⟩, hid⟩
    · refine Store.read_eq_ok_congr hroot hentries' hentries (h.kept _ fun r hr hfile => hdone ⟨r, hr, ?_⟩)
      exact (RouteId.fileName_inj hfile).symm

/-- Whether an edit leaves sound graphs sound, and their tags alone. -/
structure SparesTags (change : Graph → Graph) : Prop where
  sound : ∀ {g : Graph}, g.Sound Graph.extraDepth → (change g).Sound Graph.extraDepth
  allTags : ∀ {g : Graph}, g.Sound Graph.extraDepth →
    (change g).toValue.allTags Yaml.isKeptTag = g.toValue.allTags Yaml.isKeptTag

theorem IsLoaded.liesIn (h : IsLoaded fleet.store ids rs) (hentries : fleet.store.content = .ok entries) :
    ∀ r ∈ rs, LiesIn fleet.store.root entries r :=
  fun r hr => .of_isStored hentries (h.stored r hr)

theorem Rewritten.mem_list (h : Rewritten change (changed change rs) entries entries')
    (hroot : after.store.root = fleet.store.root) (hloaded : IsLoaded fleet.store ids rs)
    (hentries : fleet.store.content = .ok entries)
    (hlist : fleet.store.list = .ok ids) (hentries' : after.store.content = .ok entries')
    (hlist' : after.store.list = .ok ids') {id : RouteId} (hid : id ∈ ids') : id ∈ ids := by
  obtain ⟨file, hfile⟩ := (Store.mem_list_iff hentries' hlist').mp hid
  rw [hroot] at hfile
  exact (Store.mem_list_iff hentries hlist).mpr
    ⟨file, (h.isListed_iff (hloaded.liesIn hentries)).mp hfile⟩

/-- What is listed after an edit is what was listed before, as it was edited and read back. -/
theorem Rewritten.origin (h : Rewritten change (changed change rs) entries entries')
    (hroot : after.store.root = fleet.store.root) (hloaded : IsLoaded fleet.store ids rs)
    (hentries : fleet.store.content = .ok entries)
    (hlist : fleet.store.list = .ok ids) (hentries' : after.store.content = .ok entries')
    (hchange : SparesTags change) {r' : StoredRoute} (hlists : Lists after.store r') :
    ∃ r, Lists fleet.store r ∧ r'.id = r.id ∧ (change r.graph).RereadAs r'.graph := by
  obtain ⟨⟨ids', hlist', hid⟩, hstored⟩ := hlists
  rcases h.read_cases hroot (hloaded.liesIn hentries) hentries hentries' r'.id with
    ⟨r, hr, hsame, bytes, hwrite, hbytes⟩ | ⟨hfixed, hkept⟩
  · refine ⟨r, (hloaded.lists_iff hlist).mpr hr, hsame.symm, ?_⟩
    exact hstored.rereadAs (hchange.sound (hloaded.stored r hr).sound) hwrite hbytes
  · obtain ⟨bytes, hbytes, hgraph⟩ := hstored
    have hbefore : Lists fleet.store r' :=
      ⟨⟨ids, hlist, h.mem_list hroot hloaded hentries hlist hentries' hlist' hid⟩, bytes, (hkept _).mp hbytes,
        hgraph⟩
    refine ⟨r', hbefore, rfl, ?_⟩
    rw [hfixed r' ((hloaded.lists_iff hlist).mp hbefore) rfl]
    exact .refl _

/-- Where all tags are kept, what an edit has written can be read, and all else as before. -/
theorem Rewritten.allRead (h : Rewritten change (changed change rs) entries entries')
    (hroot : after.store.root = fleet.store.root) (hloaded : IsLoaded fleet.store ids rs)
    (hentries : fleet.store.content = .ok entries)
    (hlist : fleet.store.list = .ok ids) (hentries' : after.store.content = .ok entries')
    (hlist' : after.store.list = .ok ids') (hchange : SparesTags change)
    (hread : AllRead fleet.store ids) (htags : KeepsTags fleet.store) : AllRead after.store ids' := by
  intro id hid
  rcases h.read_cases hroot (hloaded.liesIn hentries) hentries hentries' id with
    ⟨r, hr, rfl, bytes, hwrite, hbytes⟩ | ⟨-, hkept⟩
  · have hsound := (hloaded.stored r hr).sound
    have hall := (hchange.allTags hsound).trans (htags r ((hloaded.lists_iff hlist).mpr hr))
    exact .inr ⟨change r.graph, bytes, hbytes, graphOf_of_bytesOf (hchange.sound hsound) hall hwrite⟩
  · rcases hread id (h.mem_list hroot hloaded hentries hlist hentries' hlist' hid) with
      hnone | ⟨g, bytes, hbytes, hgraph⟩
    · exact .inl ((hkept _).mpr hnone)
    · exact .inr ⟨g, bytes, (hkept _).mpr hbytes, hgraph⟩

theorem descends_edit (hchange : SparesTags change) {n : Nat}
    (h : outcome (edit change) fleet = (.ok n, after)) :
    Descends (fun r r' => r'.id = r.id ∧ (change r.graph).RereadAs r'.graph) fleet.store after.store := by
  obtain ⟨rs, mid, hall, hedit⟩ := outcome_bind_eq_ok h
  obtain ⟨rfl, entries, ids, hentries, hlist, hloaded⟩ := isLoaded_of_outcome_list hall
  have hsame : ∀ r ∈ rs, ∀ r' ∈ rs, r'.id = r.id → r' = r := fun r hr r' hr' hid =>
    (hloaded.stored r' hr').eq (hloaded.stored r hr) hid
  obtain ⟨entries', hentries', -, hrewritten⟩ := rewritten_of_editEach hentries hsame hedit
  have hroot := root_edit h
  refine ⟨fun r' => hrewritten.origin hroot hloaded hentries hlist hentries' hchange,
    fun htags ids' hlist' => ?_,
    fun htags r' hlists => ?_⟩
  · exact hrewritten.allRead hroot hloaded hentries hlist hentries' hlist' hchange
      (allRead_of_list hlist hall)
      htags
  · obtain ⟨r, hr, -, hreread⟩ := hrewritten.origin hroot hloaded hentries hlist hentries' hchange hlists
    have hkept := (hchange.allTags hr.2.sound).trans (htags r hr)
    rw [hreread.kept hkept]
    exact hkept

/-- An edit that leaves all listed routes as they are changes nothing. -/
theorem outcome_edit_of_fixed (hlist : fleet.store.list = .ok ids) (hread : AllRead fleet.store ids)
    (h : ∀ r, Lists fleet.store r → change r.graph = r.graph) :
    outcome (edit change) fleet = (.ok 0, fleet) := by
  obtain ⟨rs, hrs, hloaded⟩ := outcome_list_of_not_someUnread hlist (not_someUnread_iff.mpr hread)
  have hedit : outcome (edit change) fleet = outcome (editEach change rs) fleet := outcome_bind_ok hrs
  rw [hedit]
  exact outcome_editEach_of_fixed (fun r hr => h r ((hloaded.lists_iff hlist).mpr hr)) fleet

end Editing

/-! ## Moving -/

section Moving

variable {fleet after : Fleet} {pairs : List (RouteId × RouteId)} {ids ids' : List RouteId}
variable {entries entries' : Dict Entry} {rs : List StoredRoute} {moves : List (StoredRoute × RouteId)}

/-- Whether a route is another that was moved, under one of some pairs of identities. -/
def IsMoved (pairs : List (RouteId × RouteId)) (r r' : StoredRoute) : Prop :=
  (r.id, r'.id) ∈ pairs ∧ (∃ tag, r'.id = RouteId.ofTag r.id.text tag) ∧
    (r.graph.rename r.id r'.id).RereadAs r'.graph

theorem stored_of_mem_moves (hloaded : IsLoaded fleet.store ids rs)
    (hall : rs.filter (·.id.isLegacy) = moves.map (·.1)) {m : StoredRoute × RouteId} (hm : m ∈ moves) :
    m.1 ∈ rs ∧ IsStored fleet.store m.1 := by
  have hmem := (List.mem_filter.mp (hall.symm ▸ List.mem_map_of_mem hm)).1
  exact ⟨hmem, hloaded.stored _ hmem⟩

/-- What lies in the folder after the moves and was not moved itself lay there before. -/
theorem Moved.get?_of_isStored {root : String} (h : Moved root entries entries' moves)
    (hentries' : after.store.content = .ok entries') {r : StoredRoute} (hr : IsStored after.store r)
    (hnew : ∀ m ∈ moves, r.id ≠ m.2) : entries'.get? r.id.fileName = entries.get? r.id.fileName := by
  obtain ⟨-, bytes, hthere⟩ := LiesIn.of_isStored hentries' hr
  refine h.kept _ fun m hm => ⟨fun hfile => ?_, fun hfile => hnew m hm (RouteId.fileName_inj hfile)⟩
  -- Nothing is left where something was moved away.
  rw [hfile, h.gone m hm] at hthere
  cases hthere

/-- What is listed after the moves was listed before, or is what was listed before under its new
identity. -/
theorem Moved.origin (h : Moved fleet.store.root entries entries' moves)
    (hroot : after.store.root = fleet.store.root) (hloaded : IsLoaded fleet.store ids rs)
    (hall : rs.filter (·.id.isLegacy) = moves.map (·.1)) (hentries : fleet.store.content = .ok entries)
    (hlist : fleet.store.list = .ok ids) (hentries' : after.store.content = .ok entries')
    {r' : StoredRoute} (hlists : Lists after.store r') : ∃ r, Lists fleet.store r ∧
      (r' = r ∨ IsMoved (moves.map fun m => (m.1.id, m.2)) r r') := by
  obtain ⟨⟨ids', hlist', hid⟩, hstored⟩ := hlists
  by_cases hnew : ∃ m ∈ moves, r'.id = m.2
  · obtain ⟨m, hm, heq⟩ := hnew
    obtain ⟨hmem, hbefore⟩ := stored_of_mem_moves hloaded hall hm
    obtain ⟨bytes, hwrite, hbytes⟩ := h.moved m hm
    rw [← heq] at hwrite hbytes
    have hplace : after.store.read r'.id.text = .ok (some bytes) :=
      (Store.read_eq_ok_iff hentries').mpr ⟨hroot ▸ heq ▸ (h.free m hm).1, hbytes⟩
    refine ⟨m.1, (hloaded.lists_iff hlist).mpr hmem, .inr ⟨?_, ?_, ?_⟩⟩
    · exact heq ▸ List.mem_map_of_mem hm
    · exact heq ▸ (h.named m hm).1
    · exact hstored.rereadAs (hbefore.sound.rename m.1.id r'.id) hwrite hplace
  · replace hnew : ∀ m ∈ moves, r'.id ≠ m.2 := fun m hm heq => hnew ⟨m, hm, heq⟩
    have hkept := h.get?_of_isStored hentries' hstored hnew
    obtain ⟨bytes, hbytes, hgraph⟩ := hstored
    exact ⟨r', ⟨⟨ids, hlist, h.mem_list hroot hentries hlist hentries' hlist' hid hnew⟩, bytes,
      (Store.read_eq_ok_congr hroot hentries' hentries hkept).mp hbytes, hgraph⟩, .inl rfl⟩

/-- Where all tags are kept, what was moved can be read, and all else as before. -/
theorem Moved.allRead (h : Moved fleet.store.root entries entries' moves)
    (hroot : after.store.root = fleet.store.root) (hloaded : IsLoaded fleet.store ids rs)
    (hall : rs.filter (·.id.isLegacy) = moves.map (·.1)) (hentries : fleet.store.content = .ok entries)
    (hlist : fleet.store.list = .ok ids) (hentries' : after.store.content = .ok entries')
    (hlist' : after.store.list = .ok ids') (hread : AllRead fleet.store ids)
    (htags : KeepsTags fleet.store) : AllRead after.store ids' := by
  have hreach : ∀ m ∈ moves, Store.IsReachable fleet.store.root m.1.id.text := fun m hm =>
    (LiesIn.of_isStored hentries (stored_of_mem_moves hloaded hall hm).2).1
  rw [h.allRead_iff hroot hread hreach hentries hlist hentries' hlist']
  intro m hm _
  obtain ⟨hmem, old, -, hgraph⟩ := stored_of_mem_moves hloaded hall hm
  obtain ⟨bytes, hwrite, hbytes⟩ := h.moved m hm
  exact ⟨_, bytes, (Store.read_eq_ok_iff hentries').mpr ⟨hroot ▸ (h.free m hm).1, hbytes⟩,
    graphOf_bytesOf_rename hgraph (htags m.1 ((hloaded.lists_iff hlist).mpr hmem)) hwrite⟩

theorem descends_migrate (h : outcome migrate fleet = (.ok pairs, after)) :
    Descends (fun r r' => r'.id.isLegacy = false ∧ (r' = r ∨ IsMoved pairs r r')) fleet.store
      after.store := by
  obtain ⟨rs₀, mid, hrs, -⟩ := outcome_bind_eq_ok h
  obtain ⟨rs, ids, entries, entries', moves, hloaded, hlist, hentries, hentries', hroot, hall, rfl, hmoved⟩ :=
    moved_of_migrate h
  refine ⟨fun r' hlists => ?_, fun htags ids' hlist' => ?_, fun htags r' hlists => ?_⟩
  · obtain ⟨r, hr, hcomes⟩ := hmoved.origin hroot hloaded hall hentries hlist hentries' hlists
    obtain ⟨⟨ids', hlist', hid⟩, hstored⟩ := hlists
    exact ⟨r, hr, hmoved.twoParts hroot hloaded hall hentries hlist hentries' hlist' hid hstored, hcomes⟩
  · exact hmoved.allRead hroot hloaded hall hentries hlist hentries' hlist' (allRead_of_list hlist hrs) htags
  · obtain ⟨r, hr, heq | ⟨-, -, hreread⟩⟩ :=
      hmoved.origin hroot hloaded hall hentries hlist hentries' hlists
    · exact heq ▸ htags r hr
    · have hkept : (r.graph.rename r.id r'.id).toValue.allTags Yaml.isKeptTag = true :=
        Graph.allTags_rename hr.2.sound (htags r hr)
      rw [hreread.kept hkept]
      exact hkept

end Moving

end Fleet

end RouteFleet
