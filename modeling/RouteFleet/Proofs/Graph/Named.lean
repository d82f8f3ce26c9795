import RouteFleet.Proofs.Compile
import RouteFleet.Proofs.Graph.Rename

/-! # Graphs that are named after one identity

All keys and references of a compiled graph are made from the identity it was compiled under, apart from
the shared names, in which no identity with a tag is the beginning. So to rename the graph is to compile it
under the other identity (`Compiler.rename_graphOf`).
-/

namespace RouteFleet

open Text

/-! ## Entries with renamed keys -/

variable {old new : RouteId}

/-- An entry under its renamed key. -/
def renameEntry {α : Type} (old new : RouteId) (e : String × α) : String × α :=
  (renameKey old new e.1, e.2)

theorem map_fst_map_renameEntry {α : Type} (l : List (String × α)) :
    (l.map (renameEntry old new)).map (·.1) = (l.map (·.1)).map (renameKey old new) := by
  rw [List.map_map, List.map_map]
  rfl

/-- Where the keys are distinct before and after, each entry comes to stand under its renamed key. -/
theorem Dict.renameKeys_ofList {α : Type} {l : List (String × α)} (h : (l.map (·.1)).Nodup)
    (h' : ((l.map (renameEntry old new)).map (·.1)).Nodup) :
    (Dict.ofList l).renameKeys old new = Dict.ofList (l.map (renameEntry old new)) := by
  have hperm := (Dict.perm_entries_ofList h).map (renameEntry old new)
  exact Dict.ofList_eq_of_perm hperm ((hperm.map (·.1)).nodup_iff.mpr h')

/-! ## Names that are made from an identity -/

theorem renameKey_text : renameKey old new old.text = new.text := if_pos rfl

theorem renameKey_append (rest : String) :
    renameKey old new (old.text ++ "-" ++ rest) = new.text ++ "-" ++ rest := by
  have hne : old.text ++ "-" ++ rest ≠ old.text := by
    intro h
    have hlength := congrArg (fun s => s.toList.length) h
    simp at hlength
  have hstrip : stripLead? old.text (old.text ++ "-" ++ rest) = some ("-" ++ rest) :=
    stripLead?_eq_some_iff.mpr String.append_assoc
  have hhyphen : beginsWith "-" ("-" ++ rest) = true := by
    rw [beginsWith, List.isPrefixOf_iff_prefix, String.toList_append]
    exact List.prefix_append _ _
  simp only [renameKey, if_neg hne, hstrip, hhyphen, if_true]
  exact String.append_assoc.symm

theorem renameKey_middleware (kind : String) :
    renameKey old new (old.middleware kind) = new.middleware kind := renameKey_append kind

theorem renameKey_httpRouter : renameKey old new old.httpRouter = new.httpRouter := by
  have h : ∀ id : RouteId, id.httpRouter = id.text ++ "-" ++ "http" := fun id => by
    rw [RouteId.httpRouter, String.append_assoc]
    rfl
  rw [h old, h new, renameKey_append]

/-- There is an underscore in an identity that has a tag. -/
theorem RouteId.underscore_mem {id : RouteId} (h : id.isLegacy = false) : '_' ∈ id.text.toList := by
  obtain ⟨⟨name, tag⟩, hsplit⟩ := Option.isSome_iff_exists.mp (Option.isNone_eq_false_iff.mp h)
  rw [(RouteId.eq_of_split hsplit).1]
  simp

/-- The shared names stay, since there is no underscore in them. -/
theorem renameKey_wellKnown (h : old.isLegacy = false) {name : String}
    (hname : name ∈ SharedMiddlewares.wellKnown) : renameKey old new name = name := by
  have hmark : '_' ∉ name.toList :=
    (by decide : ∀ name ∈ SharedMiddlewares.wellKnown, '_' ∉ name.toList) name hname
  have hold := RouteId.underscore_mem h
  refine renameKey_eq_self (fun heq => hmark (heq ▸ hold)) ?_
  rw [Bool.eq_false_iff, beginsWith, ne_eq, List.isPrefixOf_iff_prefix]
  intro hbegins
  exact hmark (hbegins.subset (by simp [hold]))

theorem renameRef_fileRef (name : String) :
    renameRef old new (fileRef name) = fileRef (renameKey old new name) := by
  have hfile : ∀ name, fileRef name = name ++ "@" ++ "file" := fun name => by
    rw [fileRef, String.append_assoc]
    rfl
  have hsplit : splitLast '@' (name ++ "@" ++ "file") = some (name, "file") :=
    splitLast_append (by decide) name
  simp only [hfile, renameRef, hsplit]

/-! ## What is compiled -/

namespace Compiler

variable (c : Compiler) (route : Route) (users : List String)

theorem map_headersMiddleware :
    (c.headersMiddleware old route).map (renameEntry old new) = c.headersMiddleware new route := by
  unfold headersMiddleware
  split
  · rfl
  · simp [renameEntry, renameKey_middleware]

theorem map_basicAuthMiddleware :
    (basicAuthMiddleware old users).map (renameEntry old new) = basicAuthMiddleware new users := by
  unfold basicAuthMiddleware
  split
  · rfl
  · simp [renameEntry, renameKey_middleware]

theorem map_ipMiddleware :
    (ipMiddleware old route).map (renameEntry old new) = ipMiddleware new route := by
  unfold ipMiddleware
  split
  · rfl
  · split
    · rfl
    · simp [renameEntry, renameKey_middleware]

theorem map_ownMiddlewares : (c.ownMiddlewares old route users).map (renameEntry old new) =
    c.ownMiddlewares new route users := by
  rw [ownMiddlewares, List.map_append, List.map_append, map_headersMiddleware,
    map_basicAuthMiddleware, map_ipMiddleware, ownMiddlewares]

section Names

variable (hold : old.isLegacy = false) (headers auth ips : List (String × Middleware))

include hold

theorem map_plainNames : (plainNames route headers auth ips).map (renameKey old new) =
    plainNames route (headers.map (renameEntry old new)) (auth.map (renameEntry old new))
      (ips.map (renameEntry old new)) := by
  simp only [plainNames, List.map_append, map_fst_map_renameEntry, apply_ite (List.map _),
    List.map_cons, List.map_nil, renameKey_wellKnown hold (by decide : SharedMiddlewares.redirect ∈ _),
    renameKey_wellKnown hold (by decide : SharedMiddlewares.forwardAuthName ∈ _)]

theorem map_secureNames : (secureNames route headers auth ips).map (renameKey old new) =
    secureNames route (headers.map (renameEntry old new)) (auth.map (renameEntry old new))
      (ips.map (renameEntry old new)) := by
  simp only [secureNames, List.map_append, map_fst_map_renameEntry, apply_ite (List.map _),
    List.map_cons, List.map_nil, renameKey_wellKnown hold (by decide : SharedMiddlewares.hsts ∈ _),
    renameKey_wellKnown hold (by decide : SharedMiddlewares.forwardAuthName ∈ _)]

end Names

/-! ## Renamed routers -/

theorem map_listIfAny (f : String → String) (l : List String) :
    (listIfAny l).map (List.map f) = listIfAny (l.map f) := by
  cases l <;> rfl

theorem middlewares_plainRouter (id : RouteId) (headers auth ips : List (String × Middleware)) :
    (plainRouter id route headers auth ips).middlewares =
      listIfAny ((plainNames route headers auth ips).map fileRef) := by
  rw [← refs_plainRouter id, Router.refs, plainRouter, getD_listIfAny]

theorem middlewares_secureRouter (id : RouteId) (headers auth ips : List (String × Middleware)) :
    (c.secureRouter id route headers auth ips).middlewares =
      listIfAny ((secureNames route headers auth ips).map fileRef) := by
  rw [← refs_secureRouter c id, Router.refs, secureRouter, getD_listIfAny]

/-- References to some names, renamed. -/
theorem map_renameRef_listIfAny (names : List String) :
    (listIfAny (names.map fileRef)).map (List.map (renameRef old new)) =
      listIfAny ((names.map (renameKey old new)).map fileRef) := by
  rw [map_listIfAny, List.map_map, List.map_map]
  exact congrArg listIfAny (List.map_congr_left fun name _ => renameRef_fileRef name)

section Routers

variable (hold : old.isLegacy = false) (headers auth ips : List (String × Middleware))

include hold

theorem rename_plainRouter : (plainRouter old route headers auth ips).rename old new =
    plainRouter new route (headers.map (renameEntry old new)) (auth.map (renameEntry old new))
      (ips.map (renameEntry old new)) := by
  have hservice : renameRef old new (fileRef old.text) = fileRef new.text :=
    (renameRef_fileRef _).trans (congrArg fileRef renameKey_text)
  simp only [Router.rename, middlewares_plainRouter, map_renameRef_listIfAny, map_plainNames _ hold]
  simp only [← middlewares_plainRouter route new]
  simp only [plainRouter, Option.map_some, hservice]

theorem rename_secureRouter : (c.secureRouter old route headers auth ips).rename old new =
    c.secureRouter new route (headers.map (renameEntry old new)) (auth.map (renameEntry old new))
      (ips.map (renameEntry old new)) := by
  have hservice : renameRef old new (fileRef old.text) = fileRef new.text :=
    (renameRef_fileRef _).trans (congrArg fileRef renameKey_text)
  simp only [Router.rename, middlewares_secureRouter, map_renameRef_listIfAny, map_secureNames _ hold]
  simp only [← middlewares_secureRouter c route new]
  simp only [secureRouter, Option.map_some, hservice]

end Routers

/-! ## Renamed graphs -/

/-- To rename what is compiled under an identity with a tag is to compile it under the other identity. -/
theorem rename_graphOf (hold : old.isLegacy = false) (new : RouteId) :
    (c.graphOf old route users).rename old new = c.graphOf new route users := by
  have hrouters : ((c.graphOf old route users).http.routers.map (Router.rename old new)).renameKeys old new =
      (c.graphOf new route users).http.routers := by
    have hne := RouteId.httpRouter_ne_text
    simp only [graphOf, Dict.map_ofList]
    cases route.https with
    | false =>
      rw [Dict.renameKeys_ofList (by simp) (by simp)]
      simp [renameEntry, renameKey_httpRouter, rename_plainRouter _ hold, map_headersMiddleware,
        map_basicAuthMiddleware, map_ipMiddleware]
    | true =>
      rw [Dict.renameKeys_ofList (by simp [hne old])
        (by simp [renameEntry, renameKey_httpRouter, renameKey_text, hne new])]
      simp [renameEntry, renameKey_httpRouter, renameKey_text, rename_plainRouter _ hold,
        rename_secureRouter _ _ hold, map_headersMiddleware, map_basicAuthMiddleware, map_ipMiddleware]
  have hservices : (c.graphOf old route users).http.services.renameKeys old new =
      (c.graphOf new route users).http.services := by
    rw [graphOf, Dict.renameKeys_ofList (by simp) (by simp)]
    simp [graphOf, renameEntry, renameKey_text]
  have hmiddlewares : (c.graphOf old route users).http.middlewares.renameKeys old new =
      (c.graphOf new route users).http.middlewares := by
    have hrenamed : (c.ownMiddlewares old route users).map (renameEntry old new) =
        c.ownMiddlewares new route users := c.map_ownMiddlewares route users
    refine (Dict.renameKeys_ofList (c.nodup_ownMiddlewares old route users) ?_).trans
      (congrArg Dict.ofList hrenamed)
    rw [hrenamed]
    exact c.nodup_ownMiddlewares new route users
  rw [Graph.rename, hrouters, hservices, hmiddlewares]
  rfl

end Compiler

end RouteFleet
