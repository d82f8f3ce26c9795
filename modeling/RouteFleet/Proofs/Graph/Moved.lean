import Mathlib.Data.Option.Basic
import RouteFleet.Proofs.Graph.Named
import RouteFleet.Proofs.Relation

/-! # Renaming loses nothing

When all that is named after one identity moves over to another, a name goes to one place (`moves_iff`),
and a reference goes where the name goes that it speaks of (`movesRef_iff`, `MovesRef.refName`). Names that
are not made from the new identity do not come together (`Moves.inj`), and none of them is made from the old
one afterwards (`Moves.not_owns`).

So where nothing is named after the new identity yet, each entry of a dictionary moves to where its key goes,
and nothing else is there (`Dict.movedOver_renameKeys`); and a reference leads to where an entry has gone
exactly if it led to the entry (`Dict.MovedOver.leadsTo_iff`).

Main statement: `Graph.movedOver_rename`.
-/

namespace RouteFleet

open Text

universe u v

/-! ## Names -/

namespace RouteId

/-- Whether a name is an identity, or goes on from it with a hyphen. -/
def Owns (id : RouteId) (name : String) : Prop :=
  name = id.text ∨ beginsWith (id.text ++ "-") name = true

instance (id : RouteId) (name : String) : Decidable (id.Owns name) :=
  inferInstanceAs (Decidable (_ ∨ _))

variable {id : RouteId}

theorem owns_iff {name : String} :
    id.Owns name ↔ name = id.text ∨ ∃ rest, name = id.text ++ "-" ++ rest := by
  refine or_congr_right ?_
  rw [beginsWith, List.isPrefixOf_iff_prefix]
  constructor
  · rintro ⟨rest, hrest⟩
    exact ⟨String.ofList rest, String.toList_inj.mp (by simp [← hrest])⟩
  · rintro ⟨rest, rfl⟩
    exact ⟨rest.toList, by simp⟩

/-- What goes on from an identity with an underscore is not made from it. -/
theorem not_owns_append (rest : String) : ¬ id.Owns (id.text ++ "_" ++ rest) := by
  rw [owns_iff]
  rintro (heq | ⟨rest', heq⟩)
  · have hlength := congrArg (fun s => s.toList.length) heq
    simp at hlength
  · have hchars := congrArg String.toList heq
    simp at hchars

/-- No name is made from an identity as well as from that identity with a tag. -/
theorem Owns.not_owns_ofTag {name : String} (h : id.Owns name) (tag : Tag) :
    ¬ (ofTag id.text tag).Owns name := by
  intro htagged
  rcases owns_iff.mp htagged with rfl | ⟨rest, rfl⟩
  · exact not_owns_append tag.text h
  · rw [ofTag, String.append_assoc, String.append_assoc] at h
    exact not_owns_append _ h

/-- All characters of an identity are in the names that are made from it. -/
theorem Owns.subset {name : String} (h : id.Owns name) : id.text.toList ⊆ name.toList := by
  rcases owns_iff.mp h with rfl | ⟨rest, rfl⟩
  · exact List.Subset.refl _
  · simp

/-- No shared name is made from an identity with a tag, since there is no underscore in it. -/
theorem not_owns_ofTag_wellKnown (text : String) (tag : Tag) :
    ∀ name ∈ SharedMiddlewares.wellKnown, ¬ (ofTag text tag).Owns name := by
  intro name hname howns
  have hplain : '_' ∉ name.toList :=
    (by decide : ∀ name ∈ SharedMiddlewares.wellKnown, '_' ∉ name.toList) name hname
  exact hplain (howns.subset (by simp [ofTag]))

end RouteId

variable {old new : RouteId}

/-- Where a name goes when all that is named after `old` moves over to `new`. -/
inductive Moves (old new : RouteId) (name name' : String) : Prop
  | identity (h : name = old.text) (h' : name' = new.text)
  | derived (rest : String) (h : name = old.text ++ "-" ++ rest) (h' : name' = new.text ++ "-" ++ rest)
  | other (h : ¬ old.Owns name) (h' : name' = name)

theorem moves_iff {name name' : String} : Moves old new name name' ↔ name' = renameKey old new name := by
  constructor
  · rintro (⟨rfl, rfl⟩ | ⟨rest, rfl, rfl⟩ | ⟨hother, rfl⟩)
    · exact renameKey_text.symm
    · exact (renameKey_append rest).symm
    · rw [RouteId.Owns, not_or, Bool.not_eq_true] at hother
      exact (renameKey_eq_self hother.1 hother.2).symm
  · rintro rfl
    by_cases howns : old.Owns name
    · rcases RouteId.owns_iff.mp howns with rfl | ⟨rest, rfl⟩
      · exact .identity rfl renameKey_text
      · exact .derived rest rfl (renameKey_append rest)
    · have hother := howns
      rw [RouteId.Owns, not_or, Bool.not_eq_true] at hother
      exact .other howns (renameKey_eq_self hother.1 hother.2)

/-- Names that are not made from the new identity do not come together. -/
theorem Moves.inj {a b name : String} (ha : Moves old new a name) (hb : Moves old new b name)
    (hfresh : ¬ new.Owns a) (hfresh' : ¬ new.Owns b) : a = b := by
  have hderived : ∀ rest, new.Owns (new.text ++ "-" ++ rest) := fun rest =>
    RouteId.owns_iff.mpr (.inr ⟨rest, rfl⟩)
  have hlonger : ∀ rest, new.text ++ "-" ++ rest ≠ new.text := by
    intro rest heq
    have hlength := congrArg (fun s => s.toList.length) heq
    simp at hlength
  rcases ha with ⟨rfl, ha⟩ | ⟨rest, rfl, ha⟩ | ⟨-, rfl⟩
  · rcases hb with ⟨rfl, -⟩ | ⟨rest, -, hb⟩ | ⟨-, rfl⟩
    · rfl
    · exact absurd (hb.symm.trans ha) (hlonger rest)
    · exact absurd (.inl ha) hfresh'
  · rcases hb with ⟨-, hb⟩ | ⟨rest', rfl, hb⟩ | ⟨-, rfl⟩
    · exact absurd (ha.symm.trans hb) (hlonger rest)
    · rw [(String.append_right_inj _).mp (ha.symm.trans hb)]
    · exact absurd (ha ▸ hderived rest) hfresh'
  · rcases hb with ⟨-, hb⟩ | ⟨rest', -, hb⟩ | ⟨-, hb⟩
    · exact absurd (.inl hb) hfresh
    · exact absurd (hb ▸ hderived rest') hfresh
    · exact hb

/-- Nothing is named after the old identity once its names have moved over to one with a tag. -/
theorem Moves.not_owns {tag : Tag} (hnew : new = RouteId.ofTag old.text tag) {name name' : String}
    (h : Moves old new name name') : ¬ old.Owns name' := by
  subst hnew
  rcases h with ⟨-, rfl⟩ | ⟨rest, -, rfl⟩ | ⟨hother, rfl⟩
  · exact fun hold => hold.not_owns_ofTag tag (.inl rfl)
  · exact fun hold => hold.not_owns_ofTag tag (RouteId.owns_iff.mpr (.inr ⟨rest, rfl⟩))
  · exact hother

/-- A name that is not made from the new identity is what another has become if and only if the other is
that name, and is not made from the old identity. -/
theorem renameKey_eq_iff {name key : String} (hname : ¬ new.Owns name) :
    renameKey old new key = name ↔ key = name ∧ ¬ old.Owns name := by
  constructor
  · rintro rfl
    rcases moves_iff.mpr (rfl : renameKey old new key = _) with ⟨-, h⟩ | ⟨rest, -, h⟩ | ⟨hother, h⟩
    · exact absurd (.inl h) hname
    · exact absurd (RouteId.owns_iff.mpr (.inr ⟨rest, h⟩)) hname
    · rw [h]
      exact ⟨rfl, hother⟩
  · rintro ⟨rfl, hother⟩
    exact (moves_iff.mp (.other hother rfl)).symm

/-! ## References -/

/-- Where a reference goes: the name that it speaks of moves, and what qualifies the name stays. -/
inductive MovesRef (old new : RouteId) (ref ref' : String) : Prop
  | bare (hplain : '@' ∉ ref.toList) (hmoves : Moves old new ref ref')
  | qualified (name name' provider : String) (hprovider : '@' ∉ provider.toList)
    (h : ref = name ++ "@" ++ provider) (h' : ref' = name' ++ "@" ++ provider)
    (hmoves : Moves old new name name')

theorem movesRef_iff {ref ref' : String} : MovesRef old new ref ref' ↔ ref' = renameRef old new ref := by
  constructor
  · rintro (⟨hplain, hmoves⟩ | ⟨name, name', provider, hprovider, rfl, rfl, hmoves⟩)
    · rw [renameRef, splitLast_eq_none_iff.mpr hplain]
      exact moves_iff.mp hmoves
    · have hsplit : splitLast '@' (name ++ "@" ++ provider) = some (name, provider) :=
        splitLast_append hprovider name
      simp only [renameRef, hsplit, moves_iff.mp hmoves]
  · rintro rfl
    cases hsplit : splitLast '@' ref with
    | none =>
      simp only [renameRef, hsplit]
      exact .bare (splitLast_eq_none_iff.mp hsplit) (moves_iff.mpr rfl)
    | some parts =>
      simp only [renameRef, hsplit]
      exact .qualified parts.1 _ parts.2 (notMem_of_splitLast hsplit) (append_of_splitLast hsplit) rfl
        (moves_iff.mpr rfl)

/-- The name that a reference speaks of goes where names go. -/
theorem MovesRef.refName {tag : Tag} (hnew : new = RouteId.ofTag old.text tag) {ref ref' : String}
    (h : MovesRef old new ref ref') : Moves old new (refName ref) (refName ref') := by
  rw [moves_iff, movesRef_iff.mp h, refName_renameRef hnew]

/-! ## Dictionaries -/

namespace Dict

variable {α : Type u} {β : Type v} {R : α → β → Prop} {d : Dict α} {d' : Dict β}

/-- Whether the entries of a dictionary are those of another, each under the key to which its own has gone
and with a value to which its own is related. -/
structure MovedOver (old new : RouteId) (R : α → β → Prop) (d : Dict α) (d' : Dict β) : Prop where
  size : d'.size = d.size
  entry : ∀ k v, d.get? k = some v → ∃ k' v', Moves old new k k' ∧ R v v' ∧ d'.get? k' = some v'
  origin : ∀ k' v', d'.get? k' = some v' → ∃ k v, d.get? k = some v ∧ Moves old new k k' ∧ R v v'

/-- Where no key is made from the new identity, no entry is lost. -/
theorem movedOver_renameKeys {α : Type} {d : Dict α} (hfresh : ∀ k ∈ d.keys, ¬ new.Owns k) :
    d.MovedOver old new Eq (d.renameKeys old new) := by
  have hnodup : ((d.entries.map (renameEntry old new)).map (·.1)).Nodup := by
    rw [map_fst_map_renameEntry]
    refine d.nodup_keys.map_on fun a ha b hb heq => ?_
    exact Moves.inj (moves_iff.mpr rfl) (moves_iff.mpr heq) (hfresh a ha) (hfresh b hb)
  refine ⟨?_, fun k v hv => ?_, fun k' v' hv' => ?_⟩
  · exact (perm_entries_ofList hnodup).length_eq.trans (List.length_map _)
  · refine ⟨renameKey old new k, v, moves_iff.mpr rfl, rfl, get?_ofList_of_mem hnodup ?_⟩
    exact List.mem_map.mpr ⟨(k, v), get?_eq_some_iff.mp hv, rfl⟩
  · obtain ⟨⟨k, v⟩, hmem, heq⟩ := List.mem_map.mp (mem_of_get?_ofList hv')
    obtain ⟨rfl, rfl⟩ := Prod.mk.inj heq
    exact ⟨k, v, get?_eq_some_iff.mpr hmem, moves_iff.mpr rfl, rfl⟩

theorem keys_map (f : α → β) (d : Dict α) : (d.map f).keys = d.keys := List.map_map

theorem exists_moves_of_mem_keys {α : Type} {d : Dict α} {k' : String}
    (h : k' ∈ (d.renameKeys old new).keys) : ∃ k ∈ d.keys, Moves old new k k' := by
  rw [renameKeys, mem_keys_ofList, List.map_map] at h
  obtain ⟨e, he, rfl⟩ := List.mem_map.mp h
  exact ⟨e.1, List.mem_map_of_mem he, moves_iff.mpr rfl⟩

/-- A dictionary of changed values moves as the dictionary of the values does. -/
theorem MovedOver.of_map {f : α → β} (h : (d.map f).MovedOver old new Eq d') (hR : ∀ v, R v (f v)) :
    d.MovedOver old new R d' := by
  refine ⟨h.size.trans (List.length_map _), fun k v hv => ?_, fun k' v' hv' => ?_⟩
  · obtain ⟨k', v', hmoves, rfl, hv'⟩ := h.entry k (f v) (by rw [get?_map, hv, Option.map_some])
    exact ⟨k', f v, hmoves, hR v, hv'⟩
  · obtain ⟨k, v, hv, hmoves, rfl⟩ := h.origin k' v' hv'
    rw [get?_map, Option.map_eq_some_iff] at hv
    obtain ⟨v, hv, rfl⟩ := hv
    exact ⟨k, v, hv, hmoves, hR v⟩

/-- Whether a reference leads to the entry of a dictionary under a key. -/
def LeadsTo (d : Dict α) (ref k : String) : Prop := refName ref = k ∧ d.contains k = true

/-- A moved reference leads to where an entry has gone exactly if it led to the entry. -/
theorem MovedOver.leadsTo_iff {tag : Tag} (hnew : new = RouteId.ofTag old.text tag)
    (h : d.MovedOver old new R d') (hfresh : ∀ k ∈ d.keys, ¬ new.Owns k) {ref ref' : String}
    (href : ¬ new.Owns (refName ref)) (hmoves : MovesRef old new ref ref') {k' : String} :
    d'.LeadsTo ref' k' ↔ ∃ k, d.LeadsTo ref k ∧ Moves old new k k' := by
  have hname := hmoves.refName hnew
  constructor
  · rintro ⟨rfl, hthere⟩
    obtain ⟨v', hv'⟩ := contains_iff.mp hthere
    obtain ⟨k, v, hv, hgoes, -⟩ := h.origin _ v' hv'
    obtain rfl := hgoes.inj hname (hfresh k (mem_keys_iff.mpr ⟨v, hv⟩)) href
    exact ⟨refName ref, ⟨rfl, contains_iff.mpr ⟨v, hv⟩⟩, hname⟩
  · rintro ⟨_, ⟨rfl, hthere⟩, hgoes⟩
    obtain ⟨v, hv⟩ := contains_iff.mp hthere
    obtain ⟨k'', v', hgoes', -, hv'⟩ := h.entry _ v hv
    have hsame : k'' = k' := (moves_iff.mp hgoes').trans (moves_iff.mp hgoes).symm
    exact ⟨(moves_iff.mp hname).trans (moves_iff.mp hgoes).symm, contains_iff.mpr ⟨v', hsame ▸ hv'⟩⟩

end Dict

/-! ## Routers -/

/-- Whether a router is another in which each reference has gone where it goes, in its place. -/
structure Router.MovedOver (old new : RouteId) (r r' : Router) : Prop where
  service : Option.Rel (MovesRef old new) r.service r'.service
  middlewares : Option.Rel (List.Forall₂ (MovesRef old new)) r.middlewares r'.middlewares
  rest : { r with service := r'.service, middlewares := r'.middlewares } = r'

theorem Router.MovedOver.rename (old new : RouteId) (r : Router) : r.MovedOver old new (r.rename old new) where
  service := rel_map_self (fun _ => movesRef_iff.mpr rfl) r.service
  middlewares := rel_map_self (forall₂_map_self fun _ => movesRef_iff.mpr rfl) r.middlewares
  rest := rfl

/-- A renamed router refers to a name that is not made from the new identity if and only if the router did,
and the name is not made from the old one. -/
theorem Router.hasMiddleware_rename_iff {tag : Tag} (hnew : new = RouteId.ofTag old.text tag) {name : String}
    (hname : ¬ new.Owns name) {r : Router} : (r.rename old new).hasMiddleware name = true ↔
      r.hasMiddleware name = true ∧ ¬ old.Owns name := by
  simp only [hasMiddleware, refs_rename, List.any_map, List.any_eq_true, Function.comp_apply,
    decide_eq_true_eq, refName_renameRef hnew, renameKey_eq_iff hname]
  constructor
  · rintro ⟨ref, href, hspeaks, hkept⟩
    exact ⟨⟨ref, href, hspeaks⟩, hkept⟩
  · rintro ⟨⟨ref, href, hspeaks⟩, hkept⟩
    exact ⟨ref, href, hspeaks, hkept⟩

/-! ## Graphs -/

namespace Graph

variable {g : Graph}

/-- The references of all routers, to services as well as to middlewares. -/
def references (g : Graph) : List String :=
  g.http.routers.values.flatMap fun r => r.service.toList ++ r.refs

/-- The names in a graph: its keys, and what its references speak of. -/
def names (g : Graph) : List String :=
  g.http.routers.keys ++ g.http.services.keys ++ g.http.middlewares.keys ++ g.references.map refName

/-- Whether a graph is another in which all that is named after `old` has moved over to `new`: entries stand
where their keys have gone, and references lead to where they led. -/
structure MovedOver (old new : RouteId) (g g' : Graph) : Prop where
  routers : g.http.routers.MovedOver old new (Router.MovedOver old new) g'.http.routers
  services : g.http.services.MovedOver old new Eq g'.http.services
  middlewares : g.http.middlewares.MovedOver old new Eq g'.http.middlewares
  httpExtra : g'.http.extra = g.http.extra
  extra : g'.extra = g.extra
  toService : ∀ ref ∈ g.references, ∀ ref', MovesRef old new ref ref' → ∀ k',
    g'.http.services.LeadsTo ref' k' ↔ ∃ k, g.http.services.LeadsTo ref k ∧ Moves old new k k'
  toMiddleware : ∀ ref ∈ g.references, ∀ ref', MovesRef old new ref ref' → ∀ k',
    g'.http.middlewares.LeadsTo ref' k' ↔ ∃ k, g.http.middlewares.LeadsTo ref k ∧ Moves old new k k'
  gone : ∀ name ∈ g'.names, ¬ old.Owns name

theorem mem_references_iff {ref : String} : ref ∈ g.references ↔
    ∃ r ∈ g.http.routers.values, ref ∈ r.service ∨ ref ∈ r.refs := by
  simp only [references, List.mem_flatMap, List.mem_append, Option.mem_toList, Option.mem_def]

theorem exists_movesRef_of_mem_references {ref' : String} (h : ref' ∈ (g.rename old new).references) :
    ∃ ref ∈ g.references, MovesRef old new ref ref' := by
  obtain ⟨r', hr', hmem⟩ := mem_references_iff.mp h
  obtain ⟨r, hr, rfl⟩ := exists_router_of_rename hr'
  rcases hmem with hservice | hmiddleware
  · obtain ⟨ref, href, rfl⟩ := Option.map_eq_some_iff.mp hservice
    exact ⟨ref, mem_references_iff.mpr ⟨r, hr, .inl href⟩, movesRef_iff.mpr rfl⟩
  · rw [Router.refs_rename] at hmiddleware
    obtain ⟨ref, href, rfl⟩ := List.mem_map.mp hmiddleware
    exact ⟨ref, mem_references_iff.mpr ⟨r, hr, .inr href⟩, movesRef_iff.mpr rfl⟩

/-- Each name in a renamed graph is where some name has gone. -/
theorem exists_moves_of_mem_names {tag : Tag} (hnew : new = RouteId.ofTag old.text tag) {name' : String}
    (h : name' ∈ (g.rename old new).names) : ∃ name ∈ g.names, Moves old new name name' := by
  simp only [names, List.mem_append] at h ⊢
  rcases h with ((hrouter | hservice) | hmiddleware) | href
  · obtain ⟨name, hname, hmoves⟩ := Dict.exists_moves_of_mem_keys hrouter
    rw [Dict.keys_map] at hname
    exact ⟨name, .inl (.inl (.inl hname)), hmoves⟩
  · obtain ⟨name, hname, hmoves⟩ := Dict.exists_moves_of_mem_keys hservice
    exact ⟨name, .inl (.inl (.inr hname)), hmoves⟩
  · obtain ⟨name, hname, hmoves⟩ := Dict.exists_moves_of_mem_keys hmiddleware
    exact ⟨name, .inl (.inr hname), hmoves⟩
  · obtain ⟨ref', href', rfl⟩ := List.mem_map.mp href
    obtain ⟨ref, href, hmoves⟩ := exists_movesRef_of_mem_references href'
    exact ⟨refName ref, .inr (List.mem_map_of_mem href), hmoves.refName hnew⟩

/-- When all that is named after an identity moves over to that identity with a tag, and nothing is named
after the latter yet, then nothing is lost, no reference leads elsewhere, and nothing is named after the
former any more. -/
theorem movedOver_rename (g : Graph) (old : RouteId) (tag : Tag)
    (hfresh : ∀ name ∈ g.names, ¬ (RouteId.ofTag old.text tag).Owns name) :
    g.MovedOver old (RouteId.ofTag old.text tag) (g.rename old (RouteId.ofTag old.text tag)) := by
  simp only [names, List.forall_mem_append, List.forall_mem_map] at hfresh
  obtain ⟨⟨⟨hrouters, hservices⟩, hmiddlewares⟩, hrefs⟩ := hfresh
  have hservicesMoved : g.http.services.MovedOver old _ Eq _ := Dict.movedOver_renameKeys hservices
  have hmiddlewaresMoved : g.http.middlewares.MovedOver old _ Eq _ := Dict.movedOver_renameKeys hmiddlewares
  refine ⟨?_, hservicesMoved, hmiddlewaresMoved, rfl, rfl, fun ref href ref' hmoves k' => ?_,
    fun ref href ref' hmoves k' => ?_, fun name' hname' => ?_⟩
  · refine (Dict.movedOver_renameKeys ?_).of_map (Router.MovedOver.rename _ _)
    rwa [Dict.keys_map]
  · exact hservicesMoved.leadsTo_iff rfl hservices (hrefs ref href) hmoves
  · exact hmiddlewaresMoved.leadsTo_iff rfl hmiddlewares (hrefs ref href) hmoves
  · obtain ⟨name, -, hmoves⟩ := exists_moves_of_mem_names rfl hname'
    exact hmoves.not_owns rfl

/-- A legacy graph in which some names only begin like the identity, and some references lead nowhere. -/
def testGraph : Graph where
  http := {
    routers := .ofList [
      ("Test", {
        rule := "Host(`test.example.com`)"
        service := some "Test"
        middlewares := some ["sys-hsts@file", "Test-headers@file", "Tester@file", "Test-gone"] }),
      ("Test-http", { rule := "Host(`test.example.com`)", service := some "Test@file" })]
    services := .ofList [("Test", { loadBalancer := some { servers := some [{ url := "http://1.2.3.4:80" }] } })]
    middlewares := .ofList [
      ("Test-headers", .headers { customRequestHeaders := some (.ofList [("X-Env", "prod")]) }),
      ("Tester", .headers {})] }
  extra := .ofList [("zed", .bool true)]

theorem movedOver_rename_testGraph : ∃ tag : Tag, tag.text = "0a1b2c3d" ∧
    (∀ name ∈ testGraph.names, ¬ (RouteId.ofTag "Test" tag).Owns name) ∧
    testGraph.MovedOver ⟨"Test"⟩ (RouteId.ofTag "Test" tag)
      (testGraph.rename ⟨"Test"⟩ (RouteId.ofTag "Test" tag)) ∧
    (testGraph.rename ⟨"Test"⟩ (RouteId.ofTag "Test" tag)).names = ["Test_0a1b2c3d", "Test_0a1b2c3d-http",
      "Test_0a1b2c3d", "Test_0a1b2c3d-headers", "Tester", "Test_0a1b2c3d", "sys-hsts",
      "Test_0a1b2c3d-headers", "Tester", "Test_0a1b2c3d-gone", "Test_0a1b2c3d"] := by
  have hfresh : ∀ name ∈ testGraph.names,
      ¬ (RouteId.ofTag "Test" ⟨"0a1b2c3d", by decide +kernel⟩).Owns name := by decide +kernel
  exact ⟨⟨"0a1b2c3d", by decide +kernel⟩, rfl, hfresh, movedOver_rename testGraph ⟨"Test"⟩ _ hfresh,
    by decide +kernel⟩

end Graph

end RouteFleet
