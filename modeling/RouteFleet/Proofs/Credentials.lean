import Mathlib.Data.List.Forall2
import RouteFleet.Proofs.Graph.Managed

/-! # Which passwords are kept

A password that comes in may be the hash that is stored for its user: what an operator is shown of a
route has the hashes in it. Of the entries that a graph stores for one user only the last counts, so a
password is kept if it is the hash in that one (`Graph.Keeps`), and hashed anew if it is not. Where the
entries of a user are all the same, the password is kept exactly if it is stored.

Main statement: `Compiler.users_recompile`.
-/

namespace RouteFleet

open Text

/-- The user with the password, as users' middlewares hold users with their hashes. -/
def Credential.entry (e : Credential) : String := e.username ++ ":" ++ e.password

/-! ## Stored entries -/

namespace Graph

/-- The entries of all users' middlewares, in the order of the keys of these. A middleware counts
whichever identity its key bears. -/
def userEntries (g : Graph) : List String :=
  g.http.middlewares.entries.flatMap fun e =>
    if endsWith ("-" ++ Compiler.basicAuthKind) e.1 then
      match e.2.basicAuth? with
      | some auth => auth.userList
      | none => []
    else []

/-- Of the entries of a user, the last. -/
def lastEntry? (g : Graph) (username : String) : Option String :=
  g.userEntries.reverse.find? (beginsWith (username ++ ":"))

/-- Whether the password of a credential is the hash in its user's last entry. -/
def Keeps (g : Graph) (e : Credential) : Prop := g.lastEntry? e.username = some e.entry

instance (g : Graph) (e : Credential) : Decidable (g.Keeps e) :=
  inferInstanceAs (Decidable (g.lastEntry? e.username = some e.entry))

variable {g : Graph} {e : Credential}

theorem mem_userEntries_iff {entry : String} : entry ∈ g.userEntries ↔
    ∃ key auth, g.http.middlewares.get? key = some (.basicAuth auth) ∧
      endsWith ("-" ++ Compiler.basicAuthKind) key = true ∧ entry ∈ auth.userList := by
  simp only [userEntries, List.mem_flatMap, Prod.exists, Dict.get?_eq_some_iff]
  constructor
  · rintro ⟨key, m, hm, hentry⟩
    split at hentry
    · rename_i hkey
      cases m <;> first | exact ⟨key, _, hm, hkey, hentry⟩ | exact absurd hentry List.not_mem_nil
    · exact absurd hentry List.not_mem_nil
  · rintro ⟨key, auth, hm, hkey, hentry⟩
    refine ⟨key, _, hm, ?_⟩
    rw [if_pos hkey]
    exact hentry

/-- A password is kept exactly if it is stored and no later entry is of the same user. -/
theorem keeps_iff : g.Keeps e ↔ ∃ before after, g.userEntries = before ++ e.entry :: after ∧
    ∀ entry ∈ after, beginsWith (e.username ++ ":") entry = false := by
  rw [Keeps, lastEntry?, List.find?_eq_some_iff_append]
  have hown : beginsWith (e.username ++ ":") e.entry = true := by simp [Credential.entry, beginsWith]
  constructor
  · rintro ⟨-, after, before, hsplit, hafter⟩
    refine ⟨before.reverse, after.reverse, ?_, fun entry hentry => ?_⟩
    · rw [← List.reverse_reverse g.userEntries, hsplit]
      simp
    · simpa using hafter entry (List.mem_reverse.mp hentry)
  · rintro ⟨before, after, hsplit, hafter⟩
    refine ⟨hown, after.reverse, before.reverse, by rw [hsplit]; simp, fun entry hentry => ?_⟩
    simp [hafter entry (List.mem_reverse.mp hentry)]

/-- What is stored is kept where its user has no other entry. -/
theorem keeps_of_mem_userEntries (h : e.entry ∈ g.userEntries)
    (hall : ∀ entry ∈ g.userEntries, beginsWith (e.username ++ ":") entry = true → entry = e.entry) :
    g.Keeps e := by
  cases hlast : g.lastEntry? e.username with
  | none =>
    have hnone := List.find?_eq_none.mp hlast _ (List.mem_reverse.mpr h)
    exact absurd (by simp [Credential.entry, beginsWith]) hnone
  | some entry =>
    have hmem := List.mem_reverse.mp (List.mem_of_find?_eq_some hlast)
    exact hlast.trans (congrArg some (hall entry hmem (List.find?_some hlast)))

end Graph

/-! ## Hashing -/

namespace Compiler

variable {c : Compiler} {g : Graph} {e : Credential}

theorem storedHashes_eq_ofList (g : Graph) :
    storedHashes g = Dict.ofList (g.userEntries.filterMap (splitFirst ':')) := by
  rw [storedHashes, Graph.userEntries, List.filterMap_flatMap]
  congr 1
  refine List.flatMap_congr fun entry _ => ?_
  split
  · cases entry.2.basicAuth? <;> rfl
  · rfl

/-- The hash that counts for a user is the one in the user's last entry. -/
theorem get?_storedHashes_iff (h : ':' ∉ e.username.toList) :
    (storedHashes g).get? e.username = some e.password ↔ g.Keeps e := by
  have hfind : (fun entry => (splitFirst ':' entry).any fun p => decide (p.1 = e.username)) =
      beginsWith (e.username ++ ":") := by
    funext entry
    rw [Bool.eq_iff_iff]
    refine Iff.trans ?_ (beginsWith_append_iff h).symm
    rw [Option.any_eq_true]
    constructor
    · rintro ⟨⟨user, hash⟩, hsplit, huser⟩
      exact ⟨hash, of_decide_eq_true huser ▸ hsplit⟩
    · rintro ⟨hash, hsplit⟩
      exact ⟨_, hsplit, decide_eq_true rfl⟩
  rw [storedHashes_eq_ofList, Dict.get?_ofList, ← List.filterMap_reverse, List.find?_filterMap, hfind,
    Graph.Keeps, Graph.lastEntry?]
  cases hlast : g.userEntries.reverse.find? (beginsWith (e.username ++ ":")) with
  | none => simp
  | some entry =>
    obtain ⟨hash, hsplit⟩ := (beginsWith_append_iff h).mp (List.find?_some hlast)
    obtain rfl : entry = e.username ++ ":" ++ hash := append_of_splitFirst hsplit
    rw [Option.bind_some, hsplit, Option.map_some, Option.some.injEq, Option.some.injEq,
      Credential.entry, String.append_right_inj]

theorem hashCredential_of_keeps (h : ':' ∉ e.username.toList) (hkeeps : g.Keeps e) :
    c.hashCredential (storedHashes g) e = .ok e.entry := by
  rw [hashCredential, if_pos ((get?_storedHashes_iff h).mpr hkeeps), Credential.entry]

/-- What becomes of a credential: it is kept, or hashed. -/
theorem hashCredential_eq_ok_iff (h : ':' ∉ e.username.toList) {user : String} :
    c.hashCredential (storedHashes g) e = .ok user ↔
      if g.Keeps e then user = e.entry
      else ∃ hash, c.hasher e.password = .ok hash ∧ user = e.username ++ ":" ++ hash := by
  by_cases hkeeps : g.Keeps e
  · rw [hashCredential_of_keeps h hkeeps, if_pos hkeeps, Except.ok.injEq, eq_comm]
  · rw [hashCredential, if_neg (mt (get?_storedHashes_iff h).mp hkeeps), if_neg hkeeps]
    cases c.hasher e.password <;> simp [eq_comm]

theorem exists_hashCredential_iff (h : ':' ∉ e.username.toList) :
    (∃ user, c.hashCredential (storedHashes g) e = .ok user) ↔
      g.Keeps e ∨ ∃ hash, c.hasher e.password = .ok hash := by
  simp only [hashCredential_eq_ok_iff h]
  by_cases hkeeps : g.Keeps e <;> simp [hkeeps]

theorem hashCredential_eq_error_iff (h : ':' ∉ e.username.toList) {err : CompileError} :
    c.hashCredential (storedHashes g) e = .error err ↔
      ¬ g.Keeps e ∧ ∃ cause, c.hasher e.password = .error cause ∧ err = .hash e.username cause := by
  by_cases hkeeps : g.Keeps e
  · simp [hashCredential_of_keeps h hkeeps, hkeeps]
  · rw [hashCredential, if_neg (mt (get?_storedHashes_iff h).mp hkeeps)]
    cases c.hasher e.password <;> simp [hkeeps, eq_comm]

variable {stored : Dict String} {entries : List Credential}

theorem hashCredentials_eq_ok_iff {users : List String} :
    c.hashCredentials stored entries = .ok users ↔
      List.Forall₂ (fun e user => c.hashCredential stored e = .ok user) entries users := by
  induction entries generalizing users with
  | nil => cases users <;> simp [hashCredentials]
  | cons e entries ih =>
    rw [hashCredentials, List.forall₂_cons_left_iff]
    cases hfirst : c.hashCredential stored e with
    | error err => simp [bind, Except.bind]
    | ok user =>
      cases hrest : c.hashCredentials stored entries with
      | error err =>
        simp only [hrest, reduceCtorEq, false_iff] at ih
        simp [bind, Except.bind, ih]
      | ok rest =>
        simp only [hrest, Except.ok.injEq] at ih
        simp only [bind, Except.bind, pure, Except.pure, Except.ok.injEq, ← ih]
        simp [eq_comm]

/-- Hashing some credentials fails at the first that cannot be hashed. -/
theorem hashCredentials_eq_error_iff {err : CompileError} :
    c.hashCredentials stored entries = .error err ↔ ∃ before e after, entries = before ++ e :: after ∧
      (∀ b ∈ before, ∃ user, c.hashCredential stored b = .ok user) ∧
      c.hashCredential stored e = .error err := by
  induction entries with
  | nil => simp [hashCredentials]
  | cons e entries ih =>
    rw [hashCredentials]
    simp only [List.cons_eq_append_iff]
    cases hfirst : c.hashCredential stored e with
    | error err' =>
      simp only [bind, Except.bind, Except.error.injEq]
      constructor
      · rintro rfl
        exact ⟨[], e, entries, .inl ⟨rfl, rfl⟩, List.forall_mem_nil _, hfirst⟩
      · rintro ⟨before, e', after, ⟨rfl, hsplit⟩ | ⟨tail, rfl, -⟩, hbefore, he⟩
        · obtain ⟨rfl, rfl⟩ := List.cons.inj hsplit
          exact Except.error.inj (hfirst.symm.trans he)
        · obtain ⟨user, huser⟩ := hbefore e List.mem_cons_self
          cases hfirst.symm.trans huser
    | ok user =>
      have hrest : ((.ok user : Except CompileError String) >>= fun user =>
          c.hashCredentials stored entries >>= fun users => pure (user :: users)) = .error err ↔
            c.hashCredentials stored entries = .error err := by
        cases c.hashCredentials stored entries <;> simp [bind, Except.bind, pure, Except.pure]
      rw [hrest, ih]
      constructor
      · rintro ⟨before, e', after, rfl, hbefore, he⟩
        exact ⟨e :: before, e', after, .inr ⟨before, rfl, rfl⟩,
          List.forall_mem_cons.mpr ⟨⟨user, hfirst⟩, hbefore⟩, he⟩
      · rintro ⟨before, e', after, ⟨rfl, hsplit⟩ | ⟨tail, rfl, rfl⟩, hbefore, he⟩
        · obtain ⟨rfl, rfl⟩ := List.cons.inj hsplit
          cases hfirst.symm.trans he
        · exact ⟨tail, e', after, rfl, (List.forall_mem_cons.mp hbefore).2, he⟩

/-- Where the hasher takes each password, all users are hashed, whatever is stored. -/
theorem exists_hashCredentials (stored : Dict String) {hash : String → String}
    (h : ∀ e ∈ entries, c.hasher e.password = .ok (hash e.password)) :
    ∃ users, c.hashCredentials stored entries = .ok users := by
  cases hhashed : c.hashCredentials stored entries with
  | ok users => exact ⟨users, rfl⟩
  | error err =>
    obtain ⟨before, e, after, rfl, -, he⟩ := hashCredentials_eq_error_iff.mp hhashed
    rw [hashCredential, h e (List.mem_append_right _ List.mem_cons_self)] at he
    split at he <;> cases he

/-- Compiling a route again makes one entry for each active credential, in the order of the route: the
one that is stored if the password is the hash in it and no later entry is stored for the user, and one
with a new hash if it is not. It fails exactly if the hasher refuses some password that is not kept, and
names the first such user. -/
theorem users_recompile (c : Compiler) (id : RouteId) (route : Route) (previous : Graph)
    (hcolon : ∀ e ∈ route.activeCredentials, ':' ∉ e.username.toList) :
    (∀ made, c.recompile id route (some previous) = .ok made → ∃ users,
      List.Forall₂ (fun e user => if previous.Keeps e then user = e.entry
        else ∃ hash, c.hasher e.password = .ok hash ∧ user = e.username ++ ":" ++ hash)
        route.activeCredentials users ∧
      made.http.middlewares.get? (id.middleware basicAuthKind) =
        if users.isEmpty then none else some (.basicAuth { users := some users })) ∧
    (∀ err, c.recompile id route (some previous) = .error err ↔
      ∃ before e after, route.activeCredentials = before ++ e :: after ∧
        (∀ b ∈ before, previous.Keeps b ∨ ∃ hash, c.hasher b.password = .ok hash) ∧
        ¬ previous.Keeps e ∧
          ∃ cause, c.hasher e.password = .error cause ∧ err = .hash e.username cause) ∧
    ∀ e, previous.Keeps e ↔ ∃ before after, previous.userEntries = before ++ e.entry :: after ∧
      ∀ entry ∈ after, beginsWith (e.username ++ ":") entry = false := by
  refine ⟨fun made hmade => ?_, fun err => ?_, fun e => Graph.keeps_iff⟩
  · obtain ⟨users, husers, rfl⟩ := recompile_eq_ok_iff.mp hmade
    refine ⟨users, ?_, c.get?_basicAuthMiddleware id route users⟩
    have hboth := (List.forall₂_and_left _ _).mpr ⟨hcolon, hashCredentials_eq_ok_iff.mp husers⟩
    exact hboth.imp fun e user h => (hashCredential_eq_ok_iff h.1).mp h.2
  · rw [recompile_eq_error_iff, hashCredentials_eq_error_iff]
    refine exists_congr fun before => exists_congr fun e => exists_congr fun after => ?_
    refine and_congr_right fun hsplit => ?_
    rw [hsplit, List.forall_mem_append, List.forall_mem_cons] at hcolon
    obtain ⟨hbefore, he, -⟩ := hcolon
    refine and_congr (forall₂_congr fun b hb => ?_) (hashCredential_eq_error_iff he)
    exact exists_hashCredential_iff (hbefore b hb)

/-- A graph that stores two hashes for one user. -/
def twiceStored : Graph where
  http := { middlewares := .ofList [("blog_0a1b2c3d-basicauth",
    .basicAuth { users := some ["admin:h1", "admin:h2"] })] }

/-- A route whose user comes in with the first of two stored hashes. -/
def resubmittedRoute : Route where
  name := "blog"
  domain := "blog.example.com"
  backend := { url := "http://10.0.0.5:8080" }
  basicAuth := [{ username := "admin", password := "h1" }]

/-- The first of two stored hashes is hashed again, since the second one counts. -/
theorem users_recompile_twiceStored :
    (∀ e ∈ resubmittedRoute.activeCredentials, ':' ∉ e.username.toList) ∧
    ¬ twiceStored.Keeps { username := "admin", password := "h1" } ∧
    ∃ made, Compiler.recompile ⟨"le", Hasher.marking, none⟩ ⟨"blog_0a1b2c3d"⟩ resubmittedRoute
        (some twiceStored) = .ok made ∧ ∃ users,
      List.Forall₂ (fun e user => if twiceStored.Keeps e then user = e.entry
        else ∃ hash, Hasher.marking e.password = .ok hash ∧ user = e.username ++ ":" ++ hash)
        resubmittedRoute.activeCredentials users ∧
      made.http.middlewares.get? "blog_0a1b2c3d-basicauth" =
        if users.isEmpty then none else some (.basicAuth { users := some users }) := by
  have hcolon : ∀ e ∈ resubmittedRoute.activeCredentials, ':' ∉ e.username.toList := by decide
  have hmade : Compiler.recompile ⟨"le", Hasher.marking, none⟩ ⟨"blog_0a1b2c3d"⟩ resubmittedRoute
      (some twiceStored) = .ok (Compiler.graphOf ⟨"le", Hasher.marking, none⟩ ⟨"blog_0a1b2c3d"⟩
        resubmittedRoute ["admin:$static$h1"]) := by decide +kernel
  exact ⟨hcolon, by decide +kernel, _, hmade,
    (users_recompile ⟨"le", Hasher.marking, none⟩ ⟨"blog_0a1b2c3d"⟩ resubmittedRoute twiceStored
      hcolon).1 _ hmade⟩

end Compiler

end RouteFleet
