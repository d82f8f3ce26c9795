import Mathlib.Data.List.TakeWhile
import RouteFleet.Proofs.Fleet.Descent
import RouteFleet.Proofs.Graph.Commute
import RouteFleet.Proofs.List

/-! # Editing all routes twice

Two independent edits of all routes leave the same folder in either order, if both go through in both
orders. What the first one writes must come back for that: the second one reads it, and writes it again
where it changes it too.

Main statement: `Fleet.edits_commute`.
-/

namespace RouteFleet

/-- Whether the system refuses no write. -/
def Store.GrantsWrites (s : Store) : Prop := ∀ k, s.refusals.writes k = false

namespace Fleet

variable {change change' : Graph → Graph} {fleet mid after : Fleet} {rs : List StoredRoute}
variable {entries entries₁ entries₂ : Dict Entry} {ids : List RouteId}

/-! ## What an edit writes -/

section Members

variable {r : StoredRoute}

theorem mem_changed_iff : r ∈ changed change rs ↔ r ∈ rs ∧ change r.graph ≠ r.graph := by
  rw [changed, List.mem_filter, decide_eq_true_eq]

theorem mem_changed_of_mem_writable (h : r ∈ writable change rs) : r ∈ changed change rs :=
  (isPrefix_writable change rs).subset h

theorem mem_of_mem_writable (h : r ∈ writable change rs) : r ∈ rs :=
  (mem_changed_iff.mp (mem_changed_of_mem_writable h)).1

theorem isWritable_of_mem_writable (h : r ∈ writable change rs) : (change r.graph).isWritable = true := by
  have hfit := List.mem_takeWhile_imp h
  exact hfit

/-- If all that an edit changes can be written, all of it is before the first that cannot. -/
theorem writable_eq_changed (h : ∀ r ∈ changed change rs, (change r.graph).isWritable = true) :
    writable change rs = changed change rs :=
  List.takeWhile_eq_self_iff.mpr h

end Members

/-! ## Where the system refuses nothing -/

theorem not_exists_ok (e : FleetError) : ¬ ∃ n : Nat, Except.error e = .ok n := by
  rintro ⟨n, h⟩
  cases h

theorem exists_ok_map_iff {result : Except FleetError Nat} {f : Nat → Nat} :
    (∃ n, result.map f = .ok n) ↔ ∃ n, result = .ok n := by
  cases result with
  | error e => exact Iff.rfl
  | ok n => exact iff_of_true ⟨f n, rfl⟩ ⟨n, rfl⟩

/-- Routes that lie in the folder are edited in turn until one cannot be written. -/
theorem rewritten_of_grantsWrites (hentries : fleet.store.content = .ok entries)
    (hgrants : fleet.store.GrantsWrites) (hlie : ∀ r ∈ rs, LiesIn fleet.store.root entries r)
    (hsame : ∀ r ∈ rs, ∀ r' ∈ rs, r'.id = r.id → r' = r) : ∃ result mid entries₁,
      outcome (editEach change rs) fleet = (result, mid) ∧ mid.store.content = .ok entries₁ ∧
      mid.store.GrantsWrites ∧ Rewritten change (writable change rs) entries entries₁ ∧
      ((∃ n, result = .ok n) ↔ writable change rs = changed change rs) := by
  induction rs generalizing fleet entries with
  | nil => exact ⟨.ok 0, fleet, entries, rfl, hentries, hgrants, .nil, iff_of_true ⟨0, rfl⟩ rfl⟩
  | cons r rs ih =>
    obtain ⟨hr, hrs⟩ := List.forall_mem_cons.mp hlie
    have hrest : ∀ r₁ ∈ rs, ∀ r₂ ∈ rs, r₂.id = r₁.id → r₂ = r₁ := fun r₁ hr₁ r₂ hr₂ =>
      hsame r₁ (List.mem_cons_of_mem _ hr₁) r₂ (List.mem_cons_of_mem _ hr₂)
    rw [editEach]
    by_cases hfixed : change r.graph = r.graph
    · rw [if_pos hfixed, writable_cons_of_eq hfixed, changed_cons_of_eq hfixed]
      exact ih hentries hgrants hrs hrest
    rw [if_neg hfixed, writable_cons_of_ne hfixed, changed_cons_of_ne hfixed]
    by_cases hfit : (change r.graph).isWritable = true
    swap
    · rw [if_neg hfit]
      exact ⟨_, fleet, entries, outcome_bind_error (outcome_save_unwritable r.id.text hfit fleet),
        hentries, hgrants, .nil, iff_of_false (not_exists_ok _) (List.cons_ne_nil _ _).symm⟩
    rw [if_pos hfit]
    obtain ⟨bytes, hbytes, hsave⟩ :=
      outcome_save_granted hfit hentries hr.1 hr.get?_ne_folder (hgrants 0)
    have hlie' : ∀ r' ∈ rs, LiesIn fleet.store.root (entries.insert r.id.fileName (.file bytes)) r' :=
      fun r' hr' => (hrs r' hr').insert _ bytes
    obtain ⟨result, mid, entries₁, hrun, hentries₁, hgrants₁, hrewritten, hok⟩ := @ih { fleet with
      store := fleet.store.afterWrite.withEntries (entries.insert r.id.fileName (.file bytes)) }
      _ (Store.content_withEntries _ _) (fun k => hgrants (k + 1)) hlie' hrest
    refine ⟨result.map (· + 1), mid, entries₁, ?_, hentries₁, hgrants₁, .cons hbytes ?_ hrewritten, ?_⟩
    · rw [outcome_bind_ok hsave, outcome_bind_pure]
      exact congrArg (fun p => (p.1.map (· + 1), p.2)) hrun
    · intro r' hr'
      have hmem := mem_of_mem_writable hr'
      exact hsame r List.mem_cons_self r' (List.mem_cons_of_mem _ hmem)
    · rw [List.cons.injEq, and_iff_right rfl, ← hok]
      exact exists_ok_map_iff

/-! ## What the second edit reads -/

/-- A graph as it is read back after it was written; the graph itself if nothing is read. -/
def reread (g : Graph) : Graph := (Graph.ofText? g.toValue.write).getD g

theorem reread_eq {g g' : Graph} (h : Graph.ofText? g.toValue.write = some g') : reread g = g' := by
  rw [reread, h, Option.getD_some]

/-- A route as it is stored after an edit of some routes. -/
def settled (change : Graph → Graph) (rs : List StoredRoute) (r : StoredRoute) : StoredRoute :=
  if r ∈ writable change rs then { r with graph := change (reread r.graph) } else r

theorem id_settled (change : Graph → Graph) (rs : List StoredRoute) (r : StoredRoute) :
    (settled change rs r).id = r.id := by
  rw [settled]
  split <;> rfl

/-- The folder lists what it listed before some of its files were written. -/
theorem Rewritten.list_eq {done : List StoredRoute} (h : Rewritten change done entries entries₁)
    {root : String} (hdone : ∀ r ∈ done, LiesIn root entries r) (hroot : mid.store.root = fleet.store.root)
    (hentries : fleet.store.content = .ok entries) (hentries₁ : mid.store.content = .ok entries₁) :
    mid.store.list = fleet.store.list := by
  refine Store.list_congr hroot hentries₁ hentries fun file => ?_
  by_cases hfile : ∃ r ∈ done, file = r.id.fileName
  · obtain ⟨r, hr, rfl⟩ := hfile
    obtain ⟨bytes, -, hbytes⟩ := h.edited r hr
    obtain ⟨-, old, hold⟩ := hdone r hr
    rw [hbytes, hold]
    rfl
  · rw [h.kept file fun r hr heq => hfile ⟨r, hr, heq⟩]

/-- Where each route is stored as another under the same identity, and nothing new is there, these are
loaded together. -/
theorem outcome_loadAll_map {f : StoredRoute → StoredRoute}
    (h : outcome (loadAll ids) fleet = (.ok rs, after)) (hid : ∀ r, (f r).id = r.id)
    (hstored : ∀ r ∈ rs, IsStored mid.store (f r))
    (hgone : ∀ id : RouteId, fleet.store.read id.text = .ok none → mid.store.read id.text = .ok none) :
    outcome (loadAll ids) mid = (.ok (rs.map f), mid) := by
  induction ids generalizing rs after with
  | nil =>
    obtain ⟨⟨⟩, -⟩ := Prod.mk.inj h
    rfl
  | cons id ids ih =>
    rw [loadAll] at h ⊢
    obtain ⟨found, next, hfound, hrest⟩ := outcome_bind_eq_ok h
    rcases outcome_load_cases id fleet with ⟨e, hload⟩ | ⟨hload, hnone⟩ | ⟨g, hload, -⟩
    · cases hload.symm.trans hfound
    · obtain ⟨⟨⟩, rfl⟩ := Prod.mk.inj (hload.symm.trans hfound)
      rw [outcome_bind_ok (outcome_load_of_gone (hgone id hnone))]
      exact ih hrest hstored
    · obtain ⟨⟨⟩, rfl⟩ := Prod.mk.inj (hload.symm.trans hfound)
      obtain ⟨rs', last, hrs', hpure⟩ := outcome_bind_eq_ok hrest
      obtain ⟨⟨⟩, -⟩ := Prod.mk.inj hpure
      obtain ⟨hfirst, hothers⟩ := List.forall_mem_cons.mp hstored
      have hloaded := outcome_load_of_isStored hfirst
      rw [hid] at hloaded
      rw [outcome_bind_ok hloaded, outcome_bind_ok (ih hrs' hothers), List.map_cons]
      exact congrArg (fun id => (Except.ok (StoredRoute.mk id _ :: rs'.map f), mid)) (hid ⟨id, g⟩).symm

/-- What is read of an edited graph is the graph as it is read back, and edited. -/
theorem graphOf_bytesOf_change (hsteady : Graph.Steady change) {g g' : Graph}
    (hsound : g.Sound Graph.extraDepth) {key : String} {bytes : ByteArray}
    (hwrite : bytesOf key (change g) = .ok bytes) : graphOf key bytes = .ok g' ↔
      ∃ read, Graph.ofText? g.toValue.write = some read ∧ change read = g' := by
  rw [graphOf_eq_ok_iff, (bytesOf_eq_ok_iff.mp hwrite).2, ofBytes?_toUTF8, hsteady.ofText? hsound,
    Option.map_eq_some_iff]

theorem liesIn_of_mem_writable (hlist : outcome list fleet = (.ok rs, fleet))
    (hentries : fleet.store.content = .ok entries) :
    ∀ r ∈ writable change rs, LiesIn fleet.store.root entries r := by
  obtain ⟨-, _, ids, -, -, hloaded⟩ := isLoaded_of_outcome_list hlist
  exact fun r hr => hloaded.liesIn hentries r (mem_of_mem_writable hr)

section Second

variable (hsteady : Graph.Steady change) (hlist : outcome list fleet = (.ok rs, fleet))
  (hrewritten : Rewritten change (writable change rs) entries entries₁)
  (hroot : mid.store.root = fleet.store.root)
  (hentries : fleet.store.content = .ok entries) (hentries₁ : mid.store.content = .ok entries₁)

include hsteady hlist hrewritten hroot hentries hentries₁

/-- What is stored after an edit of listed routes, where what was written is read back. -/
theorem isStored_settled
    (hback : ∀ r ∈ writable change rs, ∃ g, Graph.ofText? r.graph.toValue.write = some g) :
    ∀ r ∈ rs, IsStored mid.store (settled change rs r) := by
  obtain ⟨-, _, ids, -, -, hloaded⟩ := isLoaded_of_outcome_list hlist
  intro r hr
  rw [settled]
  split
  · rename_i hdone
    obtain ⟨bytes, hwrite, hbytes⟩ := hrewritten.edited r hdone
    obtain ⟨g, hg⟩ := hback r hdone
    refine ⟨bytes, (Store.read_eq_ok_iff hentries₁).mpr
      ⟨hroot ▸ (LiesIn.of_isStored hentries (hloaded.stored r hr)).1, hbytes⟩, ?_⟩
    rw [reread_eq hg]
    exact (graphOf_bytesOf_change hsteady (hloaded.stored r hr).sound hwrite).mpr ⟨g, hg, rfl⟩
  · rename_i hspared
    obtain ⟨bytes, hbytes, hgraph⟩ := hloaded.stored r hr
    refine ⟨bytes, ?_, hgraph⟩
    refine (Store.read_eq_ok_congr hroot hentries₁ hentries (hrewritten.kept _ ?_)).mpr hbytes
    intro r' hr' hfile
    have hmem := mem_of_mem_writable hr'
    have heq := (hloaded.stored r' hmem).eq (hloaded.stored r hr) (RouteId.fileName_inj hfile).symm
    exact hspared (heq ▸ hr')

theorem outcome_list_settled
    (hback : ∀ r ∈ writable change rs, ∃ g, Graph.ofText? r.graph.toValue.write = some g) :
    outcome list mid = (.ok (rs.map (settled change rs)), mid) := by
  have hstored := isStored_settled hsteady hlist hrewritten hroot hentries hentries₁ hback
  obtain ⟨-, _, ids, -, hids, hloaded⟩ := isLoaded_of_outcome_list hlist
  have hdone := @liesIn_of_mem_writable change fleet rs entries hlist hentries
  have hall : outcome (loadAll ids) fleet = (.ok rs, fleet) :=
    (outcome_list_of_ok hids).symm.trans hlist
  have hids₁ : mid.store.list = .ok ids := (hrewritten.list_eq hdone hroot hentries hentries₁).trans hids
  refine (outcome_list_of_ok hids₁).trans
    (outcome_loadAll_map hall (id_settled change rs) hstored fun id hnone => ?_)
  refine (Store.read_eq_ok_congr hroot hentries₁ hentries (hrewritten.kept _ fun r hr hfile => ?_)).mpr hnone
  obtain ⟨-, old, hold⟩ := hdone r hr
  obtain ⟨-, hfree⟩ := (Store.read_eq_none_iff hentries).mp hnone
  exact nomatch (hfile ▸ hfree).symm.trans hold

/-- If all can be listed after an edit, what was written is read back. -/
theorem back_of_list {rs' : List StoredRoute} (h : outcome list mid = (.ok rs', after)) :
    ∀ r ∈ writable change rs, ∃ g, Graph.ofText? r.graph.toValue.write = some g := by
  obtain ⟨-, _, ids, -, hids, hloaded⟩ := isLoaded_of_outcome_list hlist
  have hdone := @liesIn_of_mem_writable change fleet rs entries hlist hentries
  have hall := allRead_of_list ((hrewritten.list_eq hdone hroot hentries hentries₁).trans hids) h
  intro r hr
  obtain ⟨bytes, hwrite, hbytes⟩ := hrewritten.edited r hr
  have hread : mid.store.read r.id.text = .ok (some bytes) :=
    (Store.read_eq_ok_iff hentries₁).mpr ⟨hroot ▸ (hdone r hr).1, hbytes⟩
  rcases hall r.id (hloaded.sublist.subset (List.mem_map_of_mem (mem_of_mem_writable hr))) with
    hnone | ⟨g, bytes', hbytes', hgraph⟩
  · exact nomatch hread.symm.trans hnone
  · obtain rfl := Option.some.inj (Except.ok.inj (hread.symm.trans hbytes'))
    obtain ⟨g', hg', -⟩ := (graphOf_bytesOf_change hsteady
      (hloaded.stored r (mem_of_mem_writable hr)).sound hwrite).mp hgraph
    exact ⟨g', hg'⟩

end Second

/-! ## What two edits in turn write -/

/-- Whether a graph is read back after it was written, and can be written once more if two changes both
change it. -/
def ComesBack (change change' : Graph → Graph) (g : Graph) : Prop :=
  ∃ g', Graph.ofText? g.toValue.write = some g' ∧
    (change g ≠ g → change' g ≠ g → g'.isWritable = true)

theorem ComesBack.symm {g : Graph} (h : ComesBack change change' g) : ComesBack change' change g := by
  obtain ⟨g', hg', hwritable⟩ := h
  exact ⟨g', hg', fun h' h => hwritable h h'⟩

section Settled

variable (hsteady : Graph.Steady change) (hsteady' : Graph.Steady change')
  (hapart : Independent change change')
  (hsound : ∀ r ∈ rs, r.graph.Sound Graph.extraDepth)
  (hback : ∀ r ∈ writable change rs, ∃ g, Graph.ofText? r.graph.toValue.write = some g)

include hsteady' hapart hsound hback

/-- After an edit an independent one changes the routes that it changed before. -/
theorem changed_settled : changed change' (rs.map (settled change rs)) =
    (changed change' rs).map (settled change rs) := by
  rw [changed, List.filter_map, changed]
  refine congrArg (List.map _) (List.filter_congr fun r hr => decide_eq_decide.mpr (not_congr ?_))
  show change' (settled change rs r).graph = (settled change rs r).graph ↔ _
  rw [settled]
  split
  · rename_i hdone
    obtain ⟨g, hg⟩ := hback r hdone
    rw [reread_eq hg, hapart.fixed']
    exact hsteady'.fixed (Graph.rereadAs_of_ofText? (hsound r hr) hg)
  · rfl

include hsteady

/-- After an edit an independent one writes the routes that it would have written before. -/
theorem writable_settled (hcomes : ∀ r ∈ writable change rs, ComesBack change change' r.graph) :
    writable change' (rs.map (settled change rs)) = (writable change' rs).map (settled change rs) := by
  rw [writable, changed_settled hsteady' hapart hsound hback, List.takeWhile_map, writable]
  refine congrArg (List.map _) (takeWhile_congr fun r hr => ?_)
  show (change' (settled change rs r).graph).isWritable = (change' r.graph).isWritable
  rw [hsteady'.isWritable, hsteady'.isWritable, settled]
  split
  · rename_i hdone
    obtain ⟨g, hg, hwritable⟩ := hcomes r hdone
    rw [reread_eq hg, hsteady.isWritable, ← hsteady.isWritable r.graph, isWritable_of_mem_writable hdone]
    exact hwritable (mem_changed_iff.mp (mem_changed_of_mem_writable hdone)).2 (mem_changed_iff.mp hr).2
  · rfl

end Settled

/-- What a route is after two edits in turn of which one at least writes it. -/
def twice (change change' : Graph → Graph) (rs : List StoredRoute) (r : StoredRoute) : Graph :=
  if r ∈ writable change' rs then change' (settled change rs r).graph else change r.graph

/-- In either order, what both edits write is what is read back with both edits, and what one of them
writes is what was read with that one. -/
theorem twice_comm (hapart : Independent change change') {r : StoredRoute}
    (h : r ∈ writable change rs ∨ r ∈ writable change' rs) :
    twice change change' rs r = twice change' change rs r := by
  rw [twice, twice, settled, settled]
  by_cases hfirst : r ∈ writable change rs
  · by_cases hsecond : r ∈ writable change' rs
    · rw [if_pos hfirst, if_pos hfirst, if_pos hsecond, if_pos hsecond]
      exact (hapart.comm (reread r.graph)).symm
    · rw [if_neg hsecond, if_pos hfirst, if_neg hsecond]
  · rw [if_pos (h.resolve_left hfirst), if_neg hfirst, if_neg hfirst]

/-- Whether in one folder all is as in another, but for the routes that one of two edits in turn writes. -/
structure EditedTwice (change change' : Graph → Graph) (rs : List StoredRoute)
    (before after : Dict Entry) : Prop where
  edited : ∀ r, r ∈ writable change rs ∨ r ∈ writable change' rs → ∃ bytes,
    bytesOf r.id.text (twice change change' rs r) = .ok bytes ∧
      after.get? r.id.fileName = some (.file bytes)
  kept : ∀ file, (∀ r, r ∈ writable change rs ∨ r ∈ writable change' rs → file ≠ r.id.fileName) →
    after.get? file = before.get? file

theorem editedTwice_of_rewritten (hsame : ∀ r ∈ rs, ∀ r' ∈ rs, r'.id = r.id → r' = r)
    (hfirst : Rewritten change (writable change rs) entries entries₁)
    (hsecond : Rewritten change' ((writable change' rs).map (settled change rs)) entries₁ entries₂) :
    EditedTwice change change' rs entries entries₂ := by
  have hkept : ∀ file, (∀ r ∈ writable change' rs, file ≠ r.id.fileName) →
      entries₂.get? file = entries₁.get? file := by
    intro file hfile
    refine hsecond.kept file fun r hr => ?_
    obtain ⟨r₀, hr₀, rfl⟩ := List.mem_map.mp hr
    rw [id_settled]
    exact hfile r₀ hr₀
  refine ⟨fun r hr => ?_, fun file hfile => ?_⟩
  · rw [twice]
    split
    · rename_i hwritten
      have hedited := hsecond.edited _ (List.mem_map_of_mem hwritten)
      rwa [id_settled] at hedited
    · rename_i hspared
      have hwritten := hr.resolve_right hspared
      obtain ⟨bytes, hbytes, hthere⟩ := hfirst.edited r hwritten
      refine ⟨bytes, hbytes, (hkept _ fun r' hr' hfile => ?_).trans hthere⟩
      have heq := hsame r (mem_of_mem_writable hwritten) r' (mem_of_mem_writable hr')
        (RouteId.fileName_inj hfile).symm
      exact hspared (heq ▸ hr')
  · rw [hkept file fun r hr => hfile r (.inr hr)]
    exact hfirst.kept file fun r hr => hfile r (.inl hr)

/-- Two independent edits in turn leave the same folder in either order. -/
theorem EditedTwice.eq (hapart : Independent change change')
    (h : EditedTwice change change' rs entries entries₁)
    (h' : EditedTwice change' change rs entries entries₂) : entries₁ = entries₂ := by
  refine Dict.ext_get? fun file => ?_
  by_cases hfile : ∃ r, (r ∈ writable change rs ∨ r ∈ writable change' rs) ∧ file = r.id.fileName
  · obtain ⟨r, hr, rfl⟩ := hfile
    obtain ⟨bytes, hbytes, hthere⟩ := h.edited r hr
    obtain ⟨bytes', hbytes', hthere'⟩ := h'.edited r hr.symm
    rw [twice_comm hapart hr, hbytes'] at hbytes
    rw [hthere, hthere', Except.ok.inj hbytes]
  · rw [h.kept file fun r hr heq => hfile ⟨r, hr, heq⟩, h'.kept file fun r hr heq => hfile ⟨r, hr.symm, heq⟩]

/-! ## Both orders -/

/-- Whether two operations in turn both succeed. -/
def BothSucceed (x y : FleetM Nat) (fleet : Fleet) : Prop :=
  (∃ n, (outcome x fleet).1 = .ok n) ∧ ∃ n, (outcome y (outcome x fleet).2).1 = .ok n

/-- The store after two operations in turn. -/
def storeAfter (x y : FleetM Nat) (fleet : Fleet) : Store := (outcome y (outcome x fleet).2).2.store

section Listed

variable (hlist : outcome list fleet = (.ok rs, fleet))

include hlist

theorem same_of_outcome_list : ∀ r ∈ rs, ∀ r' ∈ rs, r'.id = r.id → r' = r := by
  obtain ⟨-, entries, ids, -, -, hloaded⟩ := isLoaded_of_outcome_list hlist
  exact fun r hr r' hr' hid => (hloaded.stored r' hr').eq (hloaded.stored r hr) hid

theorem sound_of_outcome_list : ∀ r ∈ rs, r.graph.Sound Graph.extraDepth := by
  obtain ⟨-, entries, ids, -, -, hloaded⟩ := isLoaded_of_outcome_list hlist
  exact fun r hr => (hloaded.stored r hr).sound

end Listed

/-- Whether an operation comes to what an edit of all routes comes to, and leaves the store as that does. -/
def IsEdit (change : Graph → Graph) (x : FleetM Nat) : Prop := ∀ fleet,
  (outcome x fleet).1 = (outcome (edit change) fleet).1 ∧
    (outcome x fleet).2.store = (outcome (edit change) fleet).2.store

theorem isEdit_setCertResolver (name : String) : IsEdit (pointAt name) (setCertResolver name) := by
  intro fleet
  rw [outcome_setCertResolver]
  refine ⟨rfl, ?_⟩
  cases (outcome (edit (pointAt name)) fleet).1 <;> rfl

theorem isEdit_setForwardAuth (change : ForwardAuthChange) :
    IsEdit (changeForwardAuth change) (setForwardAuth change) := fun _ => ⟨rfl, rfl⟩

variable {x y : FleetM Nat}

theorem IsEdit.root_eq (hx : IsEdit change x) (fleet : Fleet) :
    (outcome x fleet).2.store.root = fleet.store.root := by
  rw [(hx fleet).2]
  exact root_edit rfl

/-- What an edit of all routes that succeeds has done. -/
theorem IsEdit.rewritten (hx : IsEdit change x) (h : ∃ n, (outcome x fleet).1 = .ok n) :
    ∃ rs entries entries₁, outcome list fleet = (.ok rs, fleet) ∧ fleet.store.content = .ok entries ∧
      (outcome x fleet).2.store.content = .ok entries₁ ∧
      Rewritten change (writable change rs) entries entries₁ ∧
      writable change rs = changed change rs := by
  obtain ⟨n, hn⟩ := h
  obtain ⟨hresult, hstore⟩ := hx fleet
  have hok : outcome (edit change) fleet = (.ok n, (outcome (edit change) fleet).2) :=
    Prod.ext (hresult.symm.trans hn) rfl
  obtain ⟨rs, next, hall, hedit⟩ := outcome_bind_eq_ok hok
  obtain ⟨rfl, entries, ids, hentries, hlist, hloaded⟩ := isLoaded_of_outcome_list hall
  obtain ⟨entries₁, hentries₁, -, hrewritten⟩ :=
    rewritten_of_editEach hentries (same_of_outcome_list hall) hedit
  have hfit : writable change rs = changed change rs := by
    refine writable_eq_changed fun r hr => ?_
    obtain ⟨bytes, hwrite, -⟩ := hrewritten.edited r hr
    exact (bytesOf_eq_ok_iff.mp hwrite).1
  exact ⟨rs, entries, entries₁, hall, hentries, hstore ▸ hentries₁, hfit ▸ hrewritten, hfit⟩

/-- What an edit of all routes does where the system refuses nothing. -/
theorem IsEdit.granted (hx : IsEdit change x) (hlist : outcome list fleet = (.ok rs, fleet))
    (hentries : fleet.store.content = .ok entries) (hgrants : fleet.store.GrantsWrites) :
    ∃ entries₁, (outcome x fleet).2.store.content = .ok entries₁ ∧
      (outcome x fleet).2.store.GrantsWrites ∧
      Rewritten change (writable change rs) entries entries₁ ∧
      ((∃ n, (outcome x fleet).1 = .ok n) ↔ writable change rs = changed change rs) := by
  obtain ⟨hresult, hstore⟩ := hx fleet
  obtain ⟨-, _, ids, -, -, hloaded⟩ := isLoaded_of_outcome_list hlist
  obtain ⟨result, mid, entries₁, hrun, hentries₁, hgrants₁, hrewritten, hok⟩ :=
    @rewritten_of_grantsWrites change fleet rs entries hentries hgrants (hloaded.liesIn hentries)
      (same_of_outcome_list hlist)
  have hedit : outcome (edit change) fleet = (result, mid) := (outcome_bind_ok hlist).trans hrun
  rw [hresult, hstore, hedit]
  exact ⟨entries₁, hentries₁, hgrants₁, hrewritten, hok⟩

section Orders

variable (hx : IsEdit change x) (hy : IsEdit change' y) (hsteady : Graph.Steady change)
  (hsteady' : Graph.Steady change') (hapart : Independent change change')

/-- What two edits in turn that both succeed have done. -/
structure Succeeded (change change' : Graph → Graph) (rs : List StoredRoute)
    (before after : Dict Entry) : Prop where
  all : writable change rs = changed change rs
  back : ∀ r ∈ writable change rs, ∃ g, Graph.ofText? r.graph.toValue.write = some g
  all' : writable change' (rs.map (settled change rs)) = changed change' (rs.map (settled change rs))
  rewritten : ∃ between, Rewritten change (writable change rs) before between ∧
    Rewritten change' (writable change' (rs.map (settled change rs))) between after

include hx hy hsteady in
theorem BothSucceed.succeeded (h : BothSucceed x y fleet) : ∃ rs entries entries₂,
    outcome list fleet = (.ok rs, fleet) ∧ fleet.store.content = .ok entries ∧
      (storeAfter x y fleet).content = .ok entries₂ ∧
      Succeeded change change' rs entries entries₂ := by
  obtain ⟨rs, entries, entries₁, hlist, hentries, hentries₁, hrewritten, hall⟩ := hx.rewritten h.1
  obtain ⟨rs₁, entries₁', entries₂, hlist₁, hentries₁', hentries₂, hrewritten₁, hall₁⟩ := hy.rewritten h.2
  obtain rfl := Except.ok.inj (hentries₁.symm.trans hentries₁')
  have hback := back_of_list hsteady hlist hrewritten (hx.root_eq fleet) hentries hentries₁ hlist₁
  have hagain := outcome_list_settled hsteady hlist hrewritten (hx.root_eq fleet) hentries hentries₁ hback
  obtain rfl := Except.ok.inj (Prod.mk.inj (hagain.symm.trans hlist₁)).1
  exact ⟨rs, entries, entries₂, hlist, hentries, hentries₂, hall, hback, hall₁, entries₁, hrewritten,
    hrewritten₁⟩

include hsteady hsteady' hapart in
/-- What the first of two edits that succeed changes can be written, and comes back. -/
theorem Succeeded.comesBack (h : Succeeded change change' rs entries entries₂)
    (hsound : ∀ r ∈ rs, r.graph.Sound Graph.extraDepth) {r : StoredRoute} (hr : r ∈ rs)
    (hne : change r.graph ≠ r.graph) :
    r.graph.isWritable = true ∧ ComesBack change change' r.graph := by
  have hwritten : r ∈ writable change rs := h.all ▸ mem_changed_iff.mpr ⟨hr, hne⟩
  obtain ⟨g, hg⟩ := h.back r hwritten
  refine ⟨hsteady.isWritable r.graph ▸ isWritable_of_mem_writable hwritten, g, hg, fun _ hne' => ?_⟩
  have hagain : settled change rs r ∈ writable change' (rs.map (settled change rs)) := by
    rw [h.all', changed_settled hsteady' hapart hsound h.back]
    exact List.mem_map_of_mem (mem_changed_iff.mpr ⟨hr, hne'⟩)
  have hfit := isWritable_of_mem_writable hagain
  rwa [hsteady'.isWritable, settled, if_pos hwritten, hsteady.isWritable, reread_eq hg] at hfit

/-- What of each route that one of two changes changes can be written comes back. -/
def AllComeBack (change change' : Graph → Graph) (rs : List StoredRoute) : Prop := ∀ r ∈ rs,
  change r.graph ≠ r.graph ∨ change' r.graph ≠ r.graph → r.graph.isWritable = true →
    ComesBack change change' r.graph

theorem AllComeBack.symm (h : AllComeBack change change' rs) : AllComeBack change' change rs :=
  fun r hr hchanged hwritable => (h r hr hchanged.symm hwritable).symm

include hx hy hsteady hsteady' hapart

/-- Two edits in turn, where the system refuses nothing and all comes back. -/
theorem editedTwice_of_allComeBack (hlist : outcome list fleet = (.ok rs, fleet))
    (hentries : fleet.store.content = .ok entries) (hgrants : fleet.store.GrantsWrites)
    (hcomes : AllComeBack change change' rs) : ∃ entries₂,
      (storeAfter x y fleet).content = .ok entries₂ ∧ EditedTwice change change' rs entries entries₂ ∧
      (writable change rs = changed change rs → writable change' rs = changed change' rs →
        BothSucceed x y fleet) := by
  obtain ⟨entries₁, hentries₁, hgrants₁, hrewritten, hok⟩ := hx.granted hlist hentries hgrants
  have hsound := sound_of_outcome_list hlist
  have hreturn : ∀ r ∈ writable change rs, ComesBack change change' r.graph := by
    intro r hr
    obtain ⟨hmem, hne⟩ := mem_changed_iff.mp (mem_changed_of_mem_writable hr)
    exact hcomes r hmem (.inl hne) (hsteady.isWritable r.graph ▸ isWritable_of_mem_writable hr)
  have hback : ∀ r ∈ writable change rs, ∃ g, Graph.ofText? r.graph.toValue.write = some g :=
    fun r hr => (hreturn r hr).imp fun _ h => h.1
  have hlist₁ := outcome_list_settled hsteady hlist hrewritten (hx.root_eq fleet) hentries hentries₁ hback
  obtain ⟨entries₂, hentries₂, -, hrewritten₂, hok₂⟩ := hy.granted hlist₁ hentries₁ hgrants₁
  rw [writable_settled hsteady hsteady' hapart hsound hback hreturn] at hrewritten₂ hok₂
  refine ⟨entries₂, hentries₂, editedTwice_of_rewritten (same_of_outcome_list hlist) hrewritten
    hrewritten₂, fun hall hall' => ⟨hok.mpr hall, hok₂.mpr ?_⟩⟩
  rw [changed_settled hsteady' hapart hsound hback, hall']

/-- Where all comes back and the system refuses nothing, the order does not matter, not even if there are
routes that cannot be written. -/
theorem content_eq_of_allComeBack (hlist : outcome list fleet = (.ok rs, fleet))
    (hgrants : fleet.store.GrantsWrites) (hcomes : AllComeBack change change' rs) :
    (storeAfter x y fleet).content = (storeAfter y x fleet).content := by
  obtain ⟨-, entries, ids, hentries, -, -⟩ := isLoaded_of_outcome_list hlist
  obtain ⟨entries₂, hentries₂, hedited, -⟩ :=
    editedTwice_of_allComeBack hx hy hsteady hsteady' hapart hlist hentries hgrants hcomes
  obtain ⟨entries₃, hentries₃, hedited', -⟩ := editedTwice_of_allComeBack hy hx hsteady' hsteady
    hapart.symm hlist hentries hgrants hcomes.symm
  rw [hentries₂, hentries₃, hedited.eq hapart hedited']

/-- Where both edits succeed in both orders, the order does not matter. -/
theorem content_eq_of_bothSucceed (h : BothSucceed x y fleet) (h' : BothSucceed y x fleet) :
    (storeAfter x y fleet).content = (storeAfter y x fleet).content := by
  obtain ⟨rs, entries, entries₂, hlist, hentries, hentries₂, hdone⟩ := h.succeeded hx hy hsteady
  obtain ⟨rs', entries', entries₃, hlist', hentries', hentries₃, hdone'⟩ := h'.succeeded hy hx hsteady'
  obtain rfl := Except.ok.inj (hentries.symm.trans hentries')
  obtain rfl := Except.ok.inj (Prod.mk.inj (hlist.symm.trans hlist')).1
  have hsound := sound_of_outcome_list hlist
  have hsame := same_of_outcome_list hlist
  obtain ⟨between, hfirst, hsecond⟩ := hdone.rewritten
  obtain ⟨between', hfirst', hsecond'⟩ := hdone'.rewritten
  rw [hdone.all', changed_settled hsteady' hapart hsound hdone.back, ← hdone'.all] at hsecond
  rw [hdone'.all', changed_settled hsteady hapart.symm hsound hdone'.back, ← hdone.all] at hsecond'
  rw [hentries₂, hentries₃, (editedTwice_of_rewritten hsame hfirst hsecond).eq hapart
    (editedTwice_of_rewritten hsame hfirst' hsecond')]

/-- Where the system refuses nothing, both edits succeed in both orders if and only if each route that one
of them changes can be written and comes back. -/
theorem bothSucceed_iff (hlist : outcome list fleet = (.ok rs, fleet))
    (hgrants : fleet.store.GrantsWrites) : BothSucceed x y fleet ∧ BothSucceed y x fleet ↔
      ∀ r ∈ rs, change r.graph ≠ r.graph ∨ change' r.graph ≠ r.graph →
        r.graph.isWritable = true ∧ ComesBack change change' r.graph := by
  obtain ⟨-, entries, ids, hentries, -, -⟩ := isLoaded_of_outcome_list hlist
  constructor
  · rintro ⟨h, h'⟩ r hr hchanged
    obtain ⟨rs₁, _, _, hlist₁, -, -, hdone⟩ := h.succeeded hx hy hsteady
    obtain ⟨rs₂, _, _, hlist₂, -, -, hdone'⟩ := h'.succeeded hy hx hsteady'
    obtain rfl := Except.ok.inj (Prod.mk.inj (hlist.symm.trans hlist₁)).1
    obtain rfl := Except.ok.inj (Prod.mk.inj (hlist.symm.trans hlist₂)).1
    have hsound := sound_of_outcome_list hlist
    rcases hchanged with hne | hne
    · exact hdone.comesBack hsteady hsteady' hapart hsound hr hne
    · obtain ⟨hwritable, hcomes⟩ := hdone'.comesBack hsteady' hsteady hapart.symm hsound hr hne
      exact ⟨hwritable, hcomes.symm⟩
  · intro hall
    have hcomes : AllComeBack change change' rs := fun r hr hchanged _ => (hall r hr hchanged).2
    have hfit : writable change rs = changed change rs := writable_eq_changed fun r hr => by
      obtain ⟨hmem, hne⟩ := mem_changed_iff.mp hr
      exact (hsteady.isWritable r.graph).trans (hall r hmem (.inl hne)).1
    have hfit' : writable change' rs = changed change' rs := writable_eq_changed fun r hr => by
      obtain ⟨hmem, hne⟩ := mem_changed_iff.mp hr
      exact (hsteady'.isWritable r.graph).trans (hall r hmem (.inr hne)).1
    obtain ⟨-, -, -, hsucceed⟩ :=
      editedTwice_of_allComeBack hx hy hsteady hsteady' hapart hlist hentries hgrants hcomes
    obtain ⟨-, -, -, hsucceed'⟩ := editedTwice_of_allComeBack hy hx hsteady' hsteady hapart.symm hlist
      hentries hgrants hcomes.symm
    exact ⟨hsucceed hfit hfit', hsucceed' hfit' hfit⟩

end Orders

/-! ## The two edits of a fleet -/

theorem comesBack_of_allTags {g : Graph} (hsound : g.Sound Graph.extraDepth)
    (hwritable : g.isWritable = true) (htags : g.toValue.allTags Yaml.isKeptTag = true) :
    ComesBack change change' g :=
  ⟨g, (Graph.ofText?_write_iff hsound).mpr htags, fun _ _ => hwritable⟩

/-- If all routes are pointed at a certificate resolver and forward authentication is changed in all, the
folder is the same in either order, provided that all four calls succeed. Where all routes can be read and
the system refuses nothing, they do if and only if each route that one of the calls changes can be written,
is read back, and can be written again if the other call changes it too; and where such routes keep their
tags, the folder is the same in either order even if one cannot be written. -/
theorem edits_commute (name : String) (change : ForwardAuthChange) (fleet : Fleet) :
    (BothSucceed (setCertResolver name) (setForwardAuth change) fleet →
      BothSucceed (setForwardAuth change) (setCertResolver name) fleet →
      (storeAfter (setCertResolver name) (setForwardAuth change) fleet).content =
        (storeAfter (setForwardAuth change) (setCertResolver name) fleet).content) ∧
    ∀ ids, fleet.store.list = .ok ids → AllRead fleet.store ids → fleet.store.GrantsWrites →
      (BothSucceed (setCertResolver name) (setForwardAuth change) fleet ∧
          BothSucceed (setForwardAuth change) (setCertResolver name) fleet ↔
        ∀ r, Lists fleet.store r →
          pointAt name r.graph ≠ r.graph ∨ changeForwardAuth change r.graph ≠ r.graph →
          r.graph.isWritable = true ∧ ComesBack (pointAt name) (changeForwardAuth change) r.graph) ∧
      ((∀ r, Lists fleet.store r →
          pointAt name r.graph ≠ r.graph ∨ changeForwardAuth change r.graph ≠ r.graph →
          r.graph.toValue.allTags Yaml.isKeptTag = true) →
        (storeAfter (setCertResolver name) (setForwardAuth change) fleet).content =
          (storeAfter (setForwardAuth change) (setCertResolver name) fleet).content) := by
  have hx := isEdit_setCertResolver name
  have hy := isEdit_setForwardAuth change
  have hsteady := steady_pointAt name
  have hsteady' := steady_changeForwardAuth change
  have hapart := independent_pointAt name change
  refine ⟨content_eq_of_bothSucceed hx hy hsteady hsteady' hapart, fun ids hids hread hgrants => ?_⟩
  obtain ⟨rs, hlist, hloaded⟩ := outcome_list_of_not_someUnread hids (not_someUnread_iff.mpr hread)
  simp only [hloaded.lists_iff hids]
  refine ⟨bothSucceed_iff hx hy hsteady hsteady' hapart hlist hgrants, fun htags => ?_⟩
  refine content_eq_of_allComeBack hx hy hsteady hsteady' hapart hlist hgrants ?_
  intro r hr hchanged hwritable
  exact comesBack_of_allTags (hloaded.stored r hr).sound hwritable (htags r hr hchanged)

/-- An object with a TLS block. -/
def tlsText : String := "http:\n  routers:\n    a:\n      rule: x\n      tls: {}\n"

/-- The same with a middleware that is kept as it is, of which a tag spells a comma. -/
def tlsCommaText : String := tlsText ++ "  middlewares:\n    m:\n      k: !a%2Cb x\n"

/-- A fleet of one object. -/
def soleFleet (text : String) : Fleet where
  store :=
    { root := "conf"
      content := .ok (Dict.ofList [("blog_0a1b2c3d.yaml", .file text.toUTF8)]) }
  tags := []
  compiler := { certResolver := "le", hasher := Hasher.marking, hostIp := none }

/-- What was computed of the list of all routes. -/
theorem exists_list_of_any {fleet : Fleet} {p : List StoredRoute → Bool}
    (h : (outcome list fleet).1.toOption.any p = true) :
    ∃ rs, outcome list fleet = (.ok rs, fleet) ∧ p rs = true := by
  rcases hrun : outcome list fleet with ⟨e | rs, next⟩
  · rw [hrun] at h
    cases h
  · rw [hrun] at h
    obtain ⟨rfl, -⟩ := isLoaded_of_outcome_list hrun
    exact ⟨rs, rfl, h⟩

/-- Both calls succeed in both orders where no tag is in the way, and not where one spells a comma. -/
theorem edits_commute_soleFleet :
    (BothSucceed (setCertResolver "x") (setForwardAuth .attach) (soleFleet tlsText) ∧
      BothSucceed (setForwardAuth .attach) (setCertResolver "x") (soleFleet tlsText)) ∧
    (storeAfter (setCertResolver "x") (setForwardAuth .attach) (soleFleet tlsText)).content =
      (storeAfter (setForwardAuth .attach) (setCertResolver "x") (soleFleet tlsText)).content ∧
    ¬ (BothSucceed (setCertResolver "x") (setForwardAuth .attach) (soleFleet tlsCommaText) ∧
      BothSucceed (setForwardAuth .attach) (setCertResolver "x") (soleFleet tlsCommaText)) := by
  have hboth : BothSucceed (setCertResolver "x") (setForwardAuth .attach) (soleFleet tlsText) ∧
      BothSucceed (setForwardAuth .attach) (setCertResolver "x") (soleFleet tlsText) := by
    have hids : (soleFleet tlsText).store.list = .ok [⟨"blog_0a1b2c3d"⟩] := by decide +kernel
    have hfit : (outcome list (soleFleet tlsText)).1.toOption.any (·.all fun r =>
        r.graph.isWritable && r.graph.toValue.allTags Yaml.isKeptTag) = true := by decide +kernel
    obtain ⟨rs, hrun, hall⟩ := exists_list_of_any hfit
    obtain ⟨-, _, ids, -, hlist, hloaded⟩ := isLoaded_of_outcome_list hrun
    refine ((edits_commute "x" .attach (soleFleet tlsText)).2 _ hids (allRead_of_list hids hrun)
      fun _ => rfl).1.mpr fun r hr _ => ?_
    have hkept := List.all_eq_true.mp hall r ((hloaded.lists_iff hlist).mp hr)
    rw [Bool.and_eq_true] at hkept
    exact ⟨hkept.1, comesBack_of_allTags hr.2.sound hkept.1 hkept.2⟩
  refine ⟨hboth, (edits_commute "x" .attach (soleFleet tlsText)).1 hboth.1 hboth.2, fun hsucceed => ?_⟩
  have hids : (soleFleet tlsCommaText).store.list = .ok [⟨"blog_0a1b2c3d"⟩] := by decide +kernel
  have hlost : (outcome list (soleFleet tlsCommaText)).1.toOption.any (·.any fun r =>
      pointAt "x" r.graph ≠ r.graph ∧ Graph.ofText? r.graph.toValue.write = none) = true := by decide +kernel
  obtain ⟨rs, hrun, hsome⟩ := exists_list_of_any hlost
  obtain ⟨-, _, ids, -, hlist, hloaded⟩ := isLoaded_of_outcome_list hrun
  obtain ⟨r, hr, hlost⟩ := List.any_eq_true.mp hsome
  obtain ⟨hne, hnone⟩ := of_decide_eq_true hlost
  obtain ⟨-, g, hg, -⟩ := ((edits_commute "x" .attach (soleFleet tlsCommaText)).2 _ hids
    (allRead_of_list hids hrun) fun _ => rfl).1.mp hsucceed r ((hloaded.lists_iff hlist).mpr hr) (.inl hne)
  cases hnone.symm.trans hg

end Fleet

end RouteFleet
