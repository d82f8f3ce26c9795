import RouteFleet.Proofs.Fleet.Outcome
import RouteFleet.Proofs.Graph.Text
import RouteFleet.Proofs.Store.Listing

/-! # Editing all routes

An edit of all routes first reads all. If one cannot be read nothing is changed
(`Fleet.EditsAll.unread`). Else the routes that the edit changes are written one after another, in the
order of the list, until the system refuses a write or a graph cannot be written
(`Fleet.EditsAll.read`): those before hold what the edit made of them, and nothing else is changed
(`Fleet.Rewritten`).

Both edits of a fleet are of this kind, and a fleet points routes to come at another certificate
resolver if and only if it could point all that are there at it (`Fleet.editsAll_edits`).
-/

namespace RouteFleet

namespace Fleet

/-! ## What an edit writes -/

/-- The routes that an edit changes. -/
def changed (change : Graph → Graph) (rs : List StoredRoute) : List StoredRoute :=
  rs.filter fun r => change r.graph ≠ r.graph

/-- Of the routes that an edit changes, those before the first that cannot be written as edited. -/
def writable (change : Graph → Graph) (rs : List StoredRoute) : List StoredRoute :=
  (changed change rs).takeWhile fun r => (change r.graph).isWritable

/-- Whether in one folder all is as in another, but for some routes that hold what an edit made of
them. -/
structure Rewritten (change : Graph → Graph) (done : List StoredRoute) (before after : Dict Entry) :
    Prop where
  edited : ∀ r ∈ done, ∃ bytes, bytesOf r.id.text (change r.graph) = .ok bytes ∧
    after.get? r.id.fileName = some (.file bytes)
  kept : ∀ file, (∀ r ∈ done, file ≠ r.id.fileName) → after.get? file = before.get? file

/-- How it ends that a list of routes is edited in the folder at `root`, where the system grants `n`
writes and refuses all others. -/
structure EditEnds (change : Graph → Graph) (root : String) (n : Nat) (rs : List StoredRoute)
    (before after : Dict Entry) (result : Except FleetError Nat) : Prop where
  rewritten : Rewritten change ((writable change rs).take n) before after
  /-- If all can be written and may be, all are. -/
  all : writable change rs = changed change rs → (changed change rs).length ≤ n →
    result = .ok (changed change rs).length
  /-- The first write that is refused ends it. -/
  refused : ∀ r, (writable change rs)[n]? = some r →
    result = .error (.store (.io (Path.join root r.id.fileName) .diskFull))
  /-- The first graph that cannot be written ends it, if no write was refused before. -/
  unwritable : ∀ r, (changed change rs)[(writable change rs).length]? = some r →
    (writable change rs).length ≤ n → result = .error (.store (.unwritable r.id.text))

section EachRoute

variable {change : Graph → Graph} {r : StoredRoute} {rs : List StoredRoute} {root : String} {n : Nat}
variable {before after : Dict Entry} {result : Except FleetError Nat} {bytes : ByteArray}

theorem changed_cons_of_eq (h : change r.graph = r.graph) :
    changed change (r :: rs) = changed change rs := by
  rw [changed, List.filter_cons_of_neg (by simpa using h), changed]

theorem changed_cons_of_ne (h : change r.graph ≠ r.graph) :
    changed change (r :: rs) = r :: changed change rs := by
  rw [changed, List.filter_cons_of_pos (by simpa using h), changed]

theorem writable_cons_of_eq (h : change r.graph = r.graph) :
    writable change (r :: rs) = writable change rs := by
  rw [writable, changed_cons_of_eq h, writable]

theorem writable_cons_of_ne (h : change r.graph ≠ r.graph) : writable change (r :: rs) =
    if (change r.graph).isWritable then r :: writable change rs else [] := by
  rw [writable, changed_cons_of_ne h, List.takeWhile_cons, writable]

theorem isPrefix_writable (change : Graph → Graph) (rs : List StoredRoute) :
    writable change rs <+: changed change rs := List.takeWhile_prefix _

theorem changed_sublist (change : Graph → Graph) (rs : List StoredRoute) :
    (changed change rs).Sublist rs := List.filter_sublist

theorem Rewritten.nil : Rewritten change [] before before :=
  ⟨List.forall_mem_nil _, fun _ _ => rfl⟩

/-- One more route is rewritten before some others, among which it may be once more. -/
theorem Rewritten.cons (hbytes : bytesOf r.id.text (change r.graph) = .ok bytes)
    (hsame : ∀ r' ∈ rs, r'.id = r.id → r' = r)
    (h : Rewritten change rs (before.insert r.id.fileName (.file bytes)) after) :
    Rewritten change (r :: rs) before after := by
  refine ⟨List.forall_mem_cons.mpr ⟨?_, h.edited⟩, fun file hfile => ?_⟩
  · by_cases hagain : ∃ r' ∈ rs, r'.id = r.id
    · obtain ⟨r', hr', hid⟩ := hagain
      obtain rfl := hsame r' hr' hid
      exact h.edited r' hr'
    · refine ⟨bytes, hbytes, ?_⟩
      rw [h.kept _ fun r' hr' hfile => hagain ⟨r', hr', (RouteId.fileName_inj hfile).symm⟩,
        Dict.get?_insert, if_pos rfl]
  · rw [List.forall_mem_cons] at hfile
    rw [h.kept file hfile.2, Dict.get?_insert, if_neg hfile.1]

theorem EditEnds.nil : EditEnds change root n [] before before (.ok 0) := by
  refine ⟨?_, fun _ _ => rfl, fun r hr => (nomatch hr), fun r hr => (nomatch hr)⟩
  rw [writable, changed, List.filter_nil, List.takeWhile_nil, List.take_nil]
  exact .nil

/-- A route that the edit leaves as it is does not count. -/
theorem EditEnds.skip (hsame : change r.graph = r.graph)
    (h : EditEnds change root n rs before after result) :
    EditEnds change root n (r :: rs) before after result := by
  obtain ⟨hrewritten, hall, hrefused, hunwritable⟩ := h
  rw [← writable_cons_of_eq hsame] at hrewritten hall hrefused hunwritable
  rw [← changed_cons_of_eq hsame] at hall hunwritable
  exact ⟨hrewritten, hall, hrefused, hunwritable⟩

/-- A graph that cannot be written ends it. -/
theorem EditEnds.stop (hne : change r.graph ≠ r.graph) (hunfit : ¬ (change r.graph).isWritable) :
    EditEnds change root n (r :: rs) before before (.error (.store (.unwritable r.id.text))) := by
  have hnone : writable change (r :: rs) = [] := by rw [writable_cons_of_ne hne, if_neg hunfit]
  have hsome : changed change (r :: rs) = r :: changed change rs := changed_cons_of_ne hne
  refine ⟨?_, fun hall => ?_, fun r' hr' => ?_, fun r' hr' _ => ?_⟩
  · rw [hnone, List.take_nil]
    exact .nil
  · rw [hnone, hsome] at hall
    exact nomatch hall
  · rw [hnone] at hr'
    exact nomatch hr'
  · rw [hnone, hsome] at hr'
    obtain rfl := Option.some.inj hr'
    rfl

/-- A write that is refused ends it. -/
theorem EditEnds.refuse (hne : change r.graph ≠ r.graph) (hfit : (change r.graph).isWritable = true) :
    EditEnds change root 0 (r :: rs) before before
      (.error (.store (.io (Path.join root r.id.fileName) .diskFull))) := by
  have hsome : writable change (r :: rs) = r :: writable change rs := by
    rw [writable_cons_of_ne hne, if_pos hfit]
  refine ⟨.nil, fun hall hle => ?_, fun r' hr' => ?_, fun r' _ hle => ?_⟩
  · rw [changed_cons_of_ne hne] at hle
    exact absurd hle (Nat.not_succ_le_zero _)
  · rw [hsome] at hr'
    obtain rfl := Option.some.inj hr'
    rfl
  · rw [hsome] at hle
    exact absurd hle (Nat.not_succ_le_zero _)

/-- A write that is granted counts one more. -/
theorem EditEnds.grant (hne : change r.graph ≠ r.graph) (hfit : (change r.graph).isWritable = true)
    (hbytes : bytesOf r.id.text (change r.graph) = .ok bytes) (hnew : ∀ r' ∈ rs, r'.id ≠ r.id)
    (h : EditEnds change root n rs (before.insert r.id.fileName (.file bytes)) after result) :
    EditEnds change root (n + 1) (r :: rs) before after (result.map (· + 1)) := by
  have hwritable : writable change (r :: rs) = r :: writable change rs := by
    rw [writable_cons_of_ne hne, if_pos hfit]
  have hchanged : changed change (r :: rs) = r :: changed change rs := changed_cons_of_ne hne
  refine ⟨?_, fun hall hle => ?_, fun r' hr' => ?_, fun r' hr' hle => ?_⟩
  · rw [hwritable, List.take_succ_cons]
    refine .cons hbytes (fun r' hr' heq => absurd heq (hnew r' ?_)) h.rewritten
    have hmem := (isPrefix_writable change rs).subset (List.mem_of_mem_take hr')
    exact (changed_sublist change rs).subset hmem
  · rw [hwritable, hchanged] at hall
    rw [hchanged, List.length_cons] at hle ⊢
    rw [h.all (List.cons.inj hall).2 (Nat.le_of_succ_le_succ hle)]
    rfl
  · rw [hwritable, List.getElem?_cons_succ] at hr'
    rw [h.refused r' hr']
    rfl
  · rw [hwritable, hchanged, List.length_cons, List.getElem?_cons_succ] at hr'
    rw [hwritable, List.length_cons] at hle
    rw [h.unwritable r' hr' (Nat.le_of_succ_le_succ hle)]
    rfl

/-- Routes that the edit changes and that come after those that are done are as they were. -/
theorem EditEnds.spared (h : EditEnds change root n rs before after result)
    (hids : (rs.map (·.id)).Nodup) :
    ∀ r ∈ (changed change rs).drop ((writable change rs).take n).length,
      after.get? r.id.fileName = before.get? r.id.fileName := by
  obtain ⟨rest, hrest⟩ : (writable change rs).take n <+: changed change rs :=
    (List.take_prefix n _).trans (isPrefix_writable change rs)
  have hnodup : ((changed change rs).map (·.id)).Nodup :=
    hids.sublist ((changed_sublist change rs).map _)
  rw [← hrest, List.map_append, List.nodup_append] at hnodup
  intro r hr
  rw [← hrest, List.drop_left] at hr
  refine h.rewritten.kept _ fun r' hr' hfile => ?_
  have hsame := (RouteId.fileName_inj hfile).symm
  exact hnodup.2.2 _ (List.mem_map_of_mem hr') _ (List.mem_map_of_mem hr) hsame

end EachRoute

/-! ## Editing in turn -/

/-- Routes that lie in the folder are edited in turn. -/
theorem editEnds_editEach {change : Graph → Graph} {rs : List StoredRoute} {n : Nat}
    {fleet after : Fleet} {entries : Dict Entry} {result : Except FleetError Nat}
    (hentries : fleet.store.content = .ok entries)
    (hrefusals : ∀ k, fleet.store.refusals.writes k = decide (n ≤ k))
    (hrs : ∀ r ∈ rs, LiesIn fleet.store.root entries r) (hids : (rs.map (·.id)).Nodup)
    (h : outcome (editEach change rs) fleet = (result, after)) : ∃ entries',
      after.store.content = .ok entries' ∧
        EditEnds change fleet.store.root n rs entries entries' result := by
  induction rs generalizing n fleet entries result after with
  | nil =>
    obtain ⟨rfl, rfl⟩ := Prod.mk.inj h
    exact ⟨entries, hentries, .nil⟩
  | cons r rs ih =>
    rw [List.forall_mem_cons] at hrs
    rw [List.map_cons, List.nodup_cons] at hids
    rw [editEach] at h
    by_cases hsame : change r.graph = r.graph
    · rw [if_pos hsame] at h
      obtain ⟨entries', hentries', hends⟩ := ih hentries hrefusals hrs.2 hids.2 h
      exact ⟨entries', hentries', hends.skip hsame⟩
    rw [if_neg hsame] at h
    by_cases hfit : (change r.graph).isWritable = true
    swap
    · have hsave := outcome_save_unwritable r.id.text hfit fleet
      obtain ⟨rfl, rfl⟩ := Prod.mk.inj ((outcome_bind_error hsave).symm.trans h)
      exact ⟨entries, hentries, .stop hsame hfit⟩
    cases n with
    | zero =>
      have hsave := outcome_save_refused hfit hentries hrs.1.1 hrs.1.get?_ne_folder (hrefusals 0)
      obtain ⟨rfl, rfl⟩ := Prod.mk.inj ((outcome_bind_error hsave).symm.trans h)
      exact ⟨entries, hentries, .refuse hsame hfit⟩
    | succ n =>
      obtain ⟨bytes, hbytes, hsave⟩ :=
        outcome_save_granted hfit hentries hrs.1.1 hrs.1.get?_ne_folder (hrefusals 0)
      rw [outcome_bind_ok hsave, outcome_bind_pure] at h
      obtain ⟨rfl, rfl⟩ := Prod.mk.inj h
      have hleft : ∀ k, (fleet.store.afterWrite.withEntries
          (entries.insert r.id.fileName (.file bytes))).refusals.writes k = decide (n ≤ k) := fun k => by
        rw [Store.refusals_withEntries, Store.writes_afterWrite, hrefusals]
        exact decide_eq_decide.mpr Nat.succ_le_succ_iff
      have hlie : ∀ r' ∈ rs, LiesIn fleet.store.root (entries.insert r.id.fileName (.file bytes)) r' :=
        fun r' hr' => (hrs.2 r' hr').insert _ bytes
      have hnew : ∀ r' ∈ rs, r'.id ≠ r.id := fun r' hr' heq =>
        hids.1 (heq ▸ List.mem_map_of_mem hr')
      obtain ⟨entries', hentries', hends⟩ := @ih n { fleet with
        store := fleet.store.afterWrite.withEntries (entries.insert r.id.fileName (.file bytes)) }
        _ _ _ (Store.content_withEntries _ _) hleft hlie hids.2 rfl
      exact ⟨entries', hentries', hends.grant hsame hfit hbytes hnew⟩

/-- Routes that can all be written as edited are, also if one stands there twice. -/
theorem rewritten_of_editEach {change : Graph → Graph} {rs : List StoredRoute} {fleet after : Fleet}
    {entries : Dict Entry} {n : Nat} (hentries : fleet.store.content = .ok entries)
    (hsame : ∀ r ∈ rs, ∀ r' ∈ rs, r'.id = r.id → r' = r)
    (h : outcome (editEach change rs) fleet = (.ok n, after)) : ∃ entries',
      after.store.content = .ok entries' ∧ n = (changed change rs).length ∧
        Rewritten change (changed change rs) entries entries' := by
  induction rs generalizing fleet entries n after with
  | nil =>
    obtain ⟨⟨⟩, rfl⟩ := Prod.mk.inj h
    exact ⟨entries, hentries, rfl, .nil⟩
  | cons r rs ih =>
    have hrest : ∀ r₁ ∈ rs, ∀ r₂ ∈ rs, r₂.id = r₁.id → r₂ = r₁ := fun r₁ hr₁ r₂ hr₂ =>
      hsame r₁ (List.mem_cons_of_mem _ hr₁) r₂ (List.mem_cons_of_mem _ hr₂)
    rw [editEach] at h
    by_cases hfixed : change r.graph = r.graph
    · rw [if_pos hfixed] at h
      rw [changed_cons_of_eq hfixed]
      exact ih hentries hrest h
    · rw [if_neg hfixed] at h
      obtain ⟨_, mid, hsaved, h⟩ := outcome_bind_eq_ok h
      obtain ⟨count, last, hall, hpure⟩ := outcome_bind_eq_ok h
      obtain ⟨⟨⟩, rfl⟩ := Prod.mk.inj hpure
      obtain ⟨entries₀, bytes, hentries₀, -, hbytes, rfl⟩ := outcome_save_eq_ok hsaved
      obtain rfl := Except.ok.inj (hentries.symm.trans hentries₀)
      obtain ⟨entries', hentries', rfl, hrewritten⟩ := ih (Store.content_withEntries _ _) hrest hall
      rw [changed_cons_of_ne hfixed]
      refine ⟨entries', hentries', rfl, .cons hbytes (fun r' hr' => ?_) hrewritten⟩
      exact hsame r List.mem_cons_self r' (List.mem_cons_of_mem _ ((changed_sublist change rs).subset hr'))

/-- Routes that the edit leaves as they are are not written. -/
theorem outcome_editEach_of_fixed {change : Graph → Graph} {rs : List StoredRoute}
    (h : ∀ r ∈ rs, change r.graph = r.graph) (fleet : Fleet) :
    outcome (editEach change rs) fleet = (.ok 0, fleet) := by
  induction rs with
  | nil => rfl
  | cons r rs ih =>
    rw [List.forall_mem_cons] at h
    rw [editEach, if_pos h.1]
    exact ih h.2

/-! ## Editing all -/

/-- Whether an operation edits all routes of a fleet that lists `ids`, where the system grants `n`
writes. -/
structure EditsAll (change : Graph → Graph) (n : Nat) (ids : List RouteId) (fleet : Fleet)
    (x : FleetM Nat) : Prop where
  /-- If one route cannot be read nothing is changed. -/
  unread : SomeUnread fleet ids → ∃ e, outcome x fleet = (.error e, fleet)
  /-- Else the routes are edited in turn; those whose turn has not come are as they were. -/
  read : ¬ SomeUnread fleet ids → ∃ rs before after, IsLoaded fleet.store ids rs ∧
    fleet.store.content = .ok before ∧ (outcome x fleet).2.store.content = .ok after ∧
    EditEnds change fleet.store.root n rs before after (outcome x fleet).1 ∧
    ∀ r ∈ (changed change rs).drop ((writable change rs).take n).length,
      after.get? r.id.fileName = before.get? r.id.fileName

section All

variable {fleet : Fleet} {ids : List RouteId} {n : Nat}

theorem editsAll_edit (change : Graph → Graph) (hlist : fleet.store.list = .ok ids) (hids : ids.Nodup)
    (hrefusals : ∀ k, fleet.store.refusals.writes k = decide (n ≤ k)) :
    EditsAll change n ids fleet (edit change) := by
  refine ⟨fun hunread => ?_, fun hread => ?_⟩
  · obtain ⟨e, he⟩ := outcome_list_of_someUnread hlist hunread
    exact ⟨e, outcome_bind_error he⟩
  obtain ⟨rs, hrs, hloaded⟩ := outcome_list_of_not_someUnread hlist hread
  obtain ⟨before, hbefore⟩ := Store.exists_entries_of_list hlist
  have hnodup := hids.sublist hloaded.sublist
  have hlie := fun r hr => LiesIn.of_isStored hbefore (hloaded.stored r hr)
  have hedit : outcome (edit change) fleet = outcome (editEach change rs) fleet := outcome_bind_ok hrs
  obtain ⟨after, hafter, hends⟩ := editEnds_editEach hbefore hrefusals hlie hnodup hedit.symm
  exact ⟨rs, before, after, hloaded, hbefore, hafter, hends, hends.spared hnodup⟩

end All

/-! ## The certificate resolver -/

theorem keeps_save_compiler (key : String) (g : Graph) : Keeps Fleet.compiler (save key g) :=
  (Keeps.look _).bind fun _ _ => rfl

theorem keeps_edit_compiler (change : Graph → Graph) : Keeps Fleet.compiler (edit change) := by
  refine (keeps_list _).bind fun rs => ?_
  induction rs with
  | nil => exact Keeps.pure _
  | cons r rs ih =>
    rw [editEach]
    split
    · exact ih
    · exact (keeps_save_compiler _ _).bind fun _ => ih.bind fun _ => Keeps.pure _

/-- The certificate resolver of routes to come changes if all that are there could be edited. -/
theorem outcome_setCertResolver (name : String) (fleet : Fleet) : outcome (setCertResolver name) fleet =
    ((outcome (edit (pointAt name)) fleet).1,
      match (outcome (edit (pointAt name)) fleet).1 with
      | .ok _ => { (outcome (edit (pointAt name)) fleet).2 with
          compiler := { fleet.compiler with certResolver := name } }
      | .error _ => (outcome (edit (pointAt name)) fleet).2) := by
  have hkeeps := keeps_edit_compiler (pointAt name) fleet
  rcases hedit : outcome (edit (pointAt name)) fleet with ⟨e | count, after⟩
  · exact outcome_bind_error hedit
  · rw [hedit] at hkeeps
    rw [setCertResolver, outcome_bind_ok hedit, ← hkeeps]
    rfl

/-! ## The two edits -/

theorem isWritable_mapRouters {edit : Router → Router} (h : ∀ r, (edit r).isWritable = r.isWritable)
    (g : Graph) : (g.mapRouters edit).isWritable = g.isWritable := by
  have hrouters : (g.http.routers.map edit).values.all Router.isWritable =
      g.http.routers.values.all Router.isWritable := by
    rw [Dict.values, Dict.map, List.map_map, List.all_map, Dict.values, List.all_map]
    exact congrArg g.http.routers.entries.all (funext fun e => h e.2)
  rw [Graph.isWritable, Graph.mapRouters, hrouters, Graph.isWritable]

/-- Whether a graph can be written does not depend on its certificate resolver. -/
theorem isWritable_pointAt (name : String) (g : Graph) : (pointAt name g).isWritable = g.isWritable := by
  refine isWritable_mapRouters (fun r => ?_) g
  rw [Router.withCertResolver]
  split
  · rename_i htls
    rw [Router.isWritable, Router.isWritable, htls]
  · rfl

/-- Whether a graph can be written does not depend on its references to forward authentication. -/
theorem isWritable_changeForwardAuth (change : ForwardAuthChange) (g : Graph) :
    (changeForwardAuth change g).isWritable = g.isWritable := by
  cases change with
  | attach =>
    refine isWritable_mapRouters (fun r => ?_) g
    rw [withForwardAuth]
    split <;> rfl
  | detach =>
    refine isWritable_mapRouters (fun r => ?_) g
    rw [Router.detach]
    split <;> rfl

/-- Both edits of a fleet edit all routes, and no route can be written only before or only after the
edit. The fleet points routes to come at another certificate resolver if and only if it could point all
that are there at it. -/
theorem editsAll_edits {fleet : Fleet} {ids : List RouteId} {n : Nat}
    (hlist : fleet.store.list = .ok ids) (hids : ids.Nodup)
    (hrefusals : ∀ k, fleet.store.refusals.writes k = decide (n ≤ k)) :
    (∀ name, EditsAll (pointAt name) n ids fleet (setCertResolver name) ∧
      (∀ g, (pointAt name g).isWritable = g.isWritable) ∧
      (outcome (setCertResolver name) fleet).2.compiler =
        match (outcome (setCertResolver name) fleet).1 with
        | .ok _ => { fleet.compiler with certResolver := name }
        | .error _ => fleet.compiler) ∧
    ∀ change, EditsAll (changeForwardAuth change) n ids fleet (setForwardAuth change) ∧
      (∀ g, (changeForwardAuth change g).isWritable = g.isWritable) ∧
      (outcome (setForwardAuth change) fleet).2.compiler = fleet.compiler := by
  refine ⟨fun name => ?_, fun change => ⟨editsAll_edit _ hlist hids hrefusals,
    isWritable_changeForwardAuth change, keeps_edit_compiler _ fleet⟩⟩
  obtain ⟨hunread, hread⟩ := editsAll_edit (pointAt name) hlist hids hrefusals
  have hkeeps := keeps_edit_compiler (pointAt name) fleet
  have hset := outcome_setCertResolver name fleet
  rcases hedit : outcome (edit (pointAt name)) fleet with ⟨e | count, after⟩
  · rw [hedit] at hunread hread hset hkeeps
    rw [← hset] at hunread hread
    refine ⟨⟨hunread, hread⟩, isWritable_pointAt name, ?_⟩
    rw [hset]
    exact hkeeps
  · rw [hedit] at hunread hread hset
    refine ⟨⟨fun h => ?_, fun h => ?_⟩, isWritable_pointAt name, by rw [hset]⟩
    · obtain ⟨e, he⟩ := hunread h
      exact nomatch he
    · rw [hset]
      exact hread h

/-! ## A route that cannot be written -/

/-- An object with a TLS block, and beside the managed fields a value that cannot be written. -/
def pairBlogText : String :=
  "http:\n  routers:\n    a:\n      rule: x\n      tls: \x7b\x7d\n" ++ pairKeyedText

/-- The graph of that object. -/
def pairBlogGraph : Graph where
  http := { routers := Dict.ofList [("a", { rule := "x", tls := some {} })] }
  extra := pairKeyed.extra

/-- A fleet of that object. -/
def pairBlog : Fleet where
  store :=
    { root := "conf"
      content := .ok (Dict.ofList [("blog.yaml", .file pairBlogText.toUTF8)])
      refusals := { writes := fun k => decide (3 ≤ k) } }
  tags := []
  compiler := { certResolver := "le", hasher := Hasher.marking, hostIp := none }

theorem isStored_pairBlog : IsStored pairBlog.store { id := ⟨"blog"⟩, graph := pairBlogGraph } :=
  ⟨pairBlogText.toUTF8, by rfl, by decide +kernel⟩

theorem editsAll_edits_pairBlog : pairBlog.store.list = .ok [⟨"blog"⟩] ∧
    (outcome (setCertResolver "x") pairBlog).1 = .error (.store (.unwritable "blog")) := by
  have hlist : pairBlog.store.list = .ok [⟨"blog"⟩] := by decide +kernel
  refine ⟨hlist, ?_⟩
  obtain ⟨⟨-, hread⟩, -⟩ := (editsAll_edits (n := 3) hlist (List.nodup_singleton _) fun _ => rfl).1 "x"
  obtain ⟨rs, before, after, hloaded, -, -, hends, -⟩ := hread (by
    rintro ⟨id, hid, e, he⟩
    obtain rfl := List.mem_singleton.mp hid
    rw [outcome_load_of_isStored isStored_pairBlog] at he
    exact nomatch he)
  obtain rfl := hloaded.eq_singleton isStored_pairBlog
  have hne : pointAt "x" pairBlogGraph ≠ pairBlogGraph := by decide +kernel
  have hnone : writable (pointAt "x") [{ id := ⟨"blog"⟩, graph := pairBlogGraph }] = [] := by
    rw [writable_cons_of_ne hne, if_neg (by decide +kernel)]
  refine hends.unwritable { id := ⟨"blog"⟩, graph := pairBlogGraph } ?_ (hnone ▸ Nat.zero_le 3)
  rw [hnone, changed_cons_of_ne hne]
  rfl

end Fleet

end RouteFleet
