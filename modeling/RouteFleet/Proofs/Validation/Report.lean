import RouteFleet.Proofs.Route.Valid
import RouteFleet.Proofs.Validation.Shape

/-! # What a report marks

At each place of a route some rules are looked at (`Route.rulings`): those that the route's text or
number there must keep, none for a slot that is unused or not there. The report has, place by place, one
issue for each rule that is violated, in the order of the rules, and no other (`Route.validate_exact`).
Its places are those with a violated rule, each once and in order.
-/

namespace RouteFleet

open Rule

/-! ## Rulings -/

/-- A rule about a place: whether it is kept, and what is said if it is not. -/
structure Ruling where
  kept : Bool
  issue : Issue
deriving DecidableEq, Repr

namespace Ruling

/-- The issues of the rules that are violated. -/
def issues (rulings : List Ruling) : List Issue := (rulings.filter (!·.kept)).map (·.issue)

/-- The rules about a credential: two, unless the slot is unused. -/
def ofCredential (i : Nat) (c : Credential) : List Ruling :=
  if c.username = "" ∧ c.password = "" then []
  else [⟨decide (UsernameShape c.username), .username i c.username⟩,
    ⟨decide (PasswordShape c.password), .password i⟩]

/-- The rules about a header: two, unless the slot is unused. -/
def ofHeader (i : Nat) (h : HeaderEntry) : List Ruling :=
  if h.name = "" ∧ h.value = "" then []
  else [⟨decide (HeaderNameShape h.name), .headerName i h.name⟩,
    ⟨decide (HeaderValueShape h.value), .headerValue i⟩]

/-- The rule about an address, unless the slot is unused. -/
def ofIp (i : Nat) (ip : String) : List Ruling :=
  if ip = "" then [] else [⟨decide (IpShape ip), .ipEntry i ip⟩]

/-- The rule about the depth of an address restriction. -/
def ofDepth (r : IpRestriction) : List Ruling :=
  [⟨decide (0 ≤ r.depth.toInt ∧ r.depth.toInt ≤ 30),
    .outOfRange .ipRestrictionDepth IpRestriction.depthRange r.depth.toInt⟩]

end Ruling

/-- The rules about a place of a route. -/
def Route.rulings (r : Route) : Field → List Ruling
  | .name => [⟨decide (NameShape r.name), .name r.name⟩]
  | .domain => [⟨decide (DomainShape r.domain), .domain r.domain⟩]
  | .backend => [⟨decide (BackendShape r.backend.url), .backendUrl r.backend.url⟩]
  | .header i => (r.headers[i]?).elim [] (Ruling.ofHeader i)
  | .basicAuth i => (r.basicAuth[i]?).elim [] (Ruling.ofCredential i)
  | .ipRestrictionDepth => r.ipRestriction.elim [] Ruling.ofDepth
  | .ipRestriction i => r.ipRestriction.elim [] fun x => (x.ips[i]?).elim [] (Ruling.ofIp i)

namespace Ruling

@[simp] theorem issues_nil : issues [] = [] := rfl

@[simp] theorem issues_cons (x : Ruling) (rest : List Ruling) :
    issues (x :: rest) = Route.issueUnless x.kept x.issue ++ issues rest := by
  cases hkept : x.kept <;> simp [issues, Route.issueUnless, hkept]

/-- There is one issue for each rule that is violated. -/
theorem length_issues (rulings : List Ruling) :
    (issues rulings).length = rulings.countP fun x => !x.kept := by
  rw [issues, List.length_map, List.countP_eq_length_filter]

theorem issues_ne_nil_iff {rulings : List Ruling} :
    issues rulings ≠ [] ↔ ∃ x ∈ rulings, x.kept = false := by
  rw [issues, ne_eq, List.map_eq_nil_iff, List.filter_eq_nil_iff]
  simp

end Ruling

namespace Route

/-! ## Checks and rulings -/

theorem decide_shape {b : Bool} {p : Prop} [Decidable p] (h : b = true ↔ p) : decide p = b := by
  rw [Bool.eq_iff_iff, decide_eq_true_eq, h]

theorem checkCredential_eq (i : Nat) (c : Credential) :
    checkCredential i c = Ruling.issues (Ruling.ofCredential i c) := by
  have hempty : c.isEmpty = decide (c.username = "" ∧ c.password = "") := by
    rw [Credential.isEmpty, Bool.decide_and]
    rfl
  rw [checkCredential, Ruling.ofCredential, decide_shape isUsername_iff, decide_shape isPassword_iff,
    hempty]
  by_cases h : c.username = "" ∧ c.password = "" <;> simp [h]

theorem checkHeader_eq (i : Nat) (h : HeaderEntry) :
    checkHeader i h = Ruling.issues (Ruling.ofHeader i h) := by
  have hempty : h.isEmpty = decide (h.name = "" ∧ h.value = "") := by
    rw [HeaderEntry.isEmpty, Bool.decide_and]
    rfl
  rw [checkHeader, Ruling.ofHeader, decide_shape isHeaderName_iff, decide_shape isHeaderValue_iff,
    hempty]
  by_cases hunused : h.name = "" ∧ h.value = "" <;> simp [hunused]

theorem checkIp_eq (i : Nat) (ip : String) : checkIp i ip = Ruling.issues (Ruling.ofIp i ip) := by
  rw [checkIp, Ruling.ofIp, decide_shape isIpEntry_iff]
  by_cases h : ip = "" <;> simp [h]

theorem checkDepth_eq (r : IpRestriction) :
    Report.checkRange r.depth.toInt IpRestriction.depthRange .ipRestrictionDepth =
      Ruling.issues (Ruling.ofDepth r) := by
  have hout : (decide (r.depth.toInt < 0) || decide (r.depth.toInt > 30)) =
      !decide (0 ≤ r.depth.toInt ∧ r.depth.toInt ≤ 30) := by
    rw [Bool.eq_iff_iff]
    simp only [Bool.or_eq_true, decide_eq_true_eq, Bool.not_eq_true', decide_eq_false_iff_not]
    omega
  rw [Ruling.ofDepth, Ruling.issues_cons, Ruling.issues_nil, List.append_nil]
  change (if (decide (r.depth.toInt < 0) || decide (r.depth.toInt > 30)) = true then _ else _) = _
  rw [hout]
  cases decide (0 ≤ r.depth.toInt ∧ r.depth.toInt ≤ 30) <;> rfl

/-! ## Places of issues -/

/-- Whether all issues are about one place. -/
def AllAt (f : Field) (issues : List Issue) : Prop := ∀ e ∈ issues, e.field = f

/-- Issues that are all about one place are found there and nowhere else. -/
theorem AllAt.filter_eq {f : Field} {issues : List Issue} (h : AllAt f issues) (g : Field) :
    issues.filter (·.field = g) = if f = g then issues else [] := by
  split
  · rename_i heq
    exact List.filter_eq_self.mpr fun e he => decide_eq_true ((h e he).trans heq)
  · rename_i hne
    exact List.filter_eq_nil_iff.mpr fun e he hg => hne ((h e he).symm.trans (of_decide_eq_true hg))

theorem allAt_issues {f : Field} {rulings : List Ruling} (h : ∀ x ∈ rulings, x.issue.field = f) :
    AllAt f (Ruling.issues rulings) := by
  intro e he
  obtain ⟨x, hx, rfl⟩ := List.mem_map.mp he
  exact h x (List.mem_filter.mp hx).1

theorem allAt_single (x : Ruling) : AllAt x.issue.field (Ruling.issues [x]) := by
  refine allAt_issues fun y hy => ?_
  rw [List.mem_singleton.mp hy]

/-- The rules about a slot speak at the slot, if they speak at all. -/
theorem allAt_slot {f : Field} {rulings : List Ruling} (unused : Prop) [Decidable unused]
    (h : ∀ x ∈ rulings, x.issue.field = f) :
    AllAt f (Ruling.issues (if unused then [] else rulings)) := by
  split
  · exact allAt_issues (List.forall_mem_nil _)
  · exact allAt_issues h

theorem allAt_ofCredential (i : Nat) (c : Credential) :
    AllAt (.basicAuth i) (Ruling.issues (Ruling.ofCredential i c)) := by
  refine allAt_slot _ ?_
  rw [List.forall_mem_cons, List.forall_mem_singleton]
  exact ⟨rfl, rfl⟩

theorem allAt_ofHeader (i : Nat) (h : HeaderEntry) :
    AllAt (.header i) (Ruling.issues (Ruling.ofHeader i h)) := by
  refine allAt_slot _ ?_
  rw [List.forall_mem_cons, List.forall_mem_singleton]
  exact ⟨rfl, rfl⟩

theorem allAt_ofIp (i : Nat) (ip : String) :
    AllAt (.ipRestriction i) (Ruling.issues (Ruling.ofIp i ip)) :=
  allAt_slot _ (List.forall_mem_singleton.mpr rfl)

/-! ## Entries of lists -/

section Each

variable {α : Type} {rulings : Nat → α → List Ruling} {place : Nat → Field}

/-- What is said of the entries from position `i` on. -/
def issuesFrom (rulings : Nat → α → List Ruling) (i : Nat) (l : List α) : List Issue :=
  checkEach (fun i a => Ruling.issues (rulings i a)) i l

theorem exists_place_of_mem (hat : ∀ i a, AllAt (place i) (Ruling.issues (rulings i a))) {i : Nat}
    {l : List α} {e : Issue} (h : e ∈ issuesFrom rulings i l) : ∃ j, i ≤ j ∧ e.field = place j := by
  induction l generalizing i with
  | nil => exact absurd h List.not_mem_nil
  | cons a l ih =>
    rcases List.mem_append.mp h with h | h
    · exact ⟨i, Nat.le_refl i, hat i a e h⟩
    · obtain ⟨j, hj, hplace⟩ := ih h
      exact ⟨j, Nat.le_of_succ_le hj, hplace⟩

/-- At a place of another kind nothing is said of the entries. -/
theorem filter_issuesFrom_of_ne (hat : ∀ i a, AllAt (place i) (Ruling.issues (rulings i a)))
    {f : Field} (hf : ∀ j, place j ≠ f) (l : List α) :
    (issuesFrom rulings 0 l).filter (·.field = f) = [] := by
  refine List.filter_eq_nil_iff.mpr fun e he hplace => ?_
  obtain ⟨j, -, hj⟩ := exists_place_of_mem hat he
  exact hf j (hj.symm.trans (of_decide_eq_true hplace))

/-- At the place of an entry its own rules speak and no others. Unused slots keep their positions, so
the `k`-th entry from position `i` on stands at `i + k`. -/
theorem filter_issuesFrom_add (hat : ∀ i a, AllAt (place i) (Ruling.issues (rulings i a)))
    (hinj : ∀ i j, place i = place j → i = j) (i k : Nat) (l : List α) :
    (issuesFrom rulings i l).filter (·.field = place (i + k)) =
      Ruling.issues ((l[k]?).elim [] (rulings (i + k))) := by
  induction l generalizing i k with
  | nil => rfl
  | cons a l ih =>
    rw [issuesFrom, checkEach, List.filter_append, ← issuesFrom]
    cases k with
    | zero =>
      have hlater : (issuesFrom rulings (i + 1) l).filter (·.field = place i) = [] := by
        refine List.filter_eq_nil_iff.mpr fun e he hplace => ?_
        obtain ⟨j, hj, hfield⟩ := exists_place_of_mem hat he
        have hij := hinj j i (hfield.symm.trans (of_decide_eq_true hplace))
        omega
      rw [Nat.add_zero, hlater, List.append_nil, (hat i a).filter_eq, if_pos rfl]
      rfl
    | succ k =>
      have hearlier : place i ≠ place (i + (k + 1)) := by
        intro heq
        have hij := hinj _ _ heq
        omega
      rw [(hat i a).filter_eq, if_neg hearlier, List.nil_append, ← Nat.add_assoc, Nat.add_right_comm,
        ih (i + 1) k]
      rfl

theorem filter_issuesFrom (hat : ∀ i a, AllAt (place i) (Ruling.issues (rulings i a)))
    (hinj : ∀ i j, place i = place j → i = j) (i : Nat) (l : List α) :
    (issuesFrom rulings 0 l).filter (·.field = place i) =
      Ruling.issues ((l[i]?).elim [] (rulings i)) := by
  have hslot := filter_issuesFrom_add hat hinj 0 i l
  rwa [Nat.zero_add] at hslot

end Each

section Slots

variable (f : Field)

theorem filter_credentials (l : List Credential) :
    (issuesFrom Ruling.ofCredential 0 l).filter (·.field = f) = Ruling.issues (match f with
      | .basicAuth i => (l[i]?).elim [] (Ruling.ofCredential i)
      | _ => []) := by
  cases f with
  | basicAuth i => exact filter_issuesFrom allAt_ofCredential (fun _ _ => Field.basicAuth.inj) i l
  | _ => exact filter_issuesFrom_of_ne allAt_ofCredential (by rintro j ⟨⟩) l

theorem filter_headers (l : List HeaderEntry) :
    (issuesFrom Ruling.ofHeader 0 l).filter (·.field = f) = Ruling.issues (match f with
      | .header i => (l[i]?).elim [] (Ruling.ofHeader i)
      | _ => []) := by
  cases f with
  | header i => exact filter_issuesFrom allAt_ofHeader (fun _ _ => Field.header.inj) i l
  | _ => exact filter_issuesFrom_of_ne allAt_ofHeader (by rintro j ⟨⟩) l

theorem filter_ips (l : List String) :
    (issuesFrom Ruling.ofIp 0 l).filter (·.field = f) = Ruling.issues (match f with
      | .ipRestriction i => (l[i]?).elim [] (Ruling.ofIp i)
      | _ => []) := by
  cases f with
  | ipRestriction i => exact filter_issuesFrom allAt_ofIp (fun _ _ => Field.ipRestriction.inj) i l
  | _ => exact filter_issuesFrom_of_ne allAt_ofIp (by rintro j ⟨⟩) l

end Slots

/-! ## The report, place by place -/

theorem validate_eq (r : Route) : r.validate.issues =
    Ruling.issues (r.rulings .name) ++ Ruling.issues (r.rulings .domain) ++
      Ruling.issues (r.rulings .backend) ++ issuesFrom Ruling.ofCredential 0 r.basicAuth ++
      r.ipRestriction.elim [] (fun x => Ruling.issues (Ruling.ofDepth x) ++
        issuesFrom Ruling.ofIp 0 x.ips) ++
      issuesFrom Ruling.ofHeader 0 r.headers := by
  have hcredential : checkCredential = fun i c => Ruling.issues (Ruling.ofCredential i c) := by
    funext i c
    exact checkCredential_eq i c
  have hheader : checkHeader = fun i h => Ruling.issues (Ruling.ofHeader i h) := by
    funext i h
    exact checkHeader_eq i h
  have hip : checkIp = fun i ip => Ruling.issues (Ruling.ofIp i ip) := by
    funext i ip
    exact checkIp_eq i ip
  have hname : issueUnless (isName r.name) (.name r.name) = Ruling.issues (r.rulings .name) := by
    simp [rulings, decide_shape isName_iff]
  have hdomain : issueUnless (isDomain r.domain) (.domain r.domain) =
      Ruling.issues (r.rulings .domain) := by
    simp [rulings, decide_shape isDomain_iff]
  have hbackend : issueUnless (isBackendUrl r.backend.url) (.backendUrl r.backend.url) =
      Ruling.issues (r.rulings .backend) := by
    simp [rulings, decide_shape isBackendUrl_iff]
  rw [validate, hname, hdomain, hbackend, hcredential, hheader]
  cases r.ipRestriction with
  | none => rfl
  | some x =>
    simp only [checkRestriction, checkDepth_eq, hip, Option.elim_some]
    rfl

/-- The issues at a place are those of the rules that are violated there. -/
theorem issuesAt_validate (r : Route) (f : Field) :
    r.validate.issuesAt f = Ruling.issues (r.rulings f) := by
  have hname : (Ruling.issues (r.rulings .name)).filter (·.field = f) =
      if Field.name = f then Ruling.issues (r.rulings .name) else [] := (allAt_single _).filter_eq f
  have hdomain : (Ruling.issues (r.rulings .domain)).filter (·.field = f) =
      if Field.domain = f then Ruling.issues (r.rulings .domain) else [] := (allAt_single _).filter_eq f
  have hbackend : (Ruling.issues (r.rulings .backend)).filter (·.field = f) =
      if Field.backend = f then Ruling.issues (r.rulings .backend) else [] := (allAt_single _).filter_eq f
  have hdepth : ∀ x, (Ruling.issues (Ruling.ofDepth x)).filter (·.field = f) =
      if Field.ipRestrictionDepth = f then Ruling.issues (Ruling.ofDepth x) else [] := fun x =>
    (allAt_single _).filter_eq f
  rw [Report.issuesAt, validate_eq]
  simp only [List.filter_append, hname, hdomain, hbackend, filter_credentials, filter_headers]
  cases hrestriction : r.ipRestriction with
  | none => cases f <;> simp [rulings, hrestriction]
  | some x =>
    simp only [Option.elim_some, List.filter_append, hdepth, filter_ips]
    cases f <;> simp [rulings, hrestriction]

end Route

/-! ## Marked places -/

namespace Field

/-- Whether a place comes before another. -/
def Before (f g : Field) : Prop := f.le g = true ∧ f ≠ g

theorem le_iff {f g : Field} :
    f.le g = true ↔ f.rank.1 < g.rank.1 ∨ (f.rank.1 = g.rank.1 ∧ f.rank.2 ≤ g.rank.2) := by
  rw [le, Bool.or_eq_true, Bool.and_eq_true, decide_eq_true_eq, decide_eq_true_eq, beq_iff_eq]

theorem rank_inj {f g : Field} (h : f.rank = g.rank) : f = g := by
  cases f <;> cases g <;> simp_all [rank]

theorem Before.trans {f g k : Field} (h : Before f g) (h' : Before g k) : Before f k := by
  obtain ⟨hle, hne⟩ := h
  obtain ⟨hle', -⟩ := h'
  rw [le_iff] at hle hle'
  refine ⟨le_iff.mpr (by omega), ?_⟩
  rintro rfl
  exact hne (rank_inj (Prod.ext (by omega) (by omega)))

theorem before_of_not_le {f g : Field} (h : f.le g ≠ true) : Before g f := by
  rw [ne_eq, le_iff] at h
  refine ⟨le_iff.mpr (by omega), ?_⟩
  rintro rfl
  omega

end Field

namespace Report

theorem mem_insertField {f g : Field} {l : List Field} : g ∈ insertField f l ↔ g = f ∨ g ∈ l := by
  induction l with
  | nil => simp [insertField]
  | cons k l ih =>
    rw [insertField]
    split
    · rename_i heq
      simp [heq]
    · split
      · simp
      · rw [List.mem_cons, ih, List.mem_cons]
        exact or_left_comm

/-- Entering a place keeps the order. -/
theorem pairwise_insertField {f : Field} {l : List Field} (h : l.Pairwise Field.Before) :
    (insertField f l).Pairwise Field.Before := by
  induction l with
  | nil => exact List.pairwise_singleton _ _
  | cons g l ih =>
    obtain ⟨hfirst, hrest⟩ := List.pairwise_cons.mp h
    rw [insertField]
    split
    · exact h
    · rename_i hne
      split
      · rename_i hle
        refine List.pairwise_cons.mpr ⟨fun k hk => ?_, h⟩
        rcases List.mem_cons.mp hk with rfl | hk
        · exact ⟨hle, hne⟩
        · exact Field.Before.trans ⟨hle, hne⟩ (hfirst k hk)
      · rename_i hnle
        refine List.pairwise_cons.mpr ⟨fun k hk => ?_, ih hrest⟩
        rcases mem_insertField.mp hk with rfl | hk
        · exact Field.before_of_not_le hnle
        · exact hfirst k hk

variable {issues : List Issue} {seen : List Field}

theorem mem_foldl_insertField {f : Field} :
    f ∈ issues.foldl (fun fs i => insertField i.field fs) seen ↔
      f ∈ seen ∨ ∃ e ∈ issues, e.field = f := by
  induction issues generalizing seen with
  | nil => simp
  | cons e issues ih =>
    rw [List.foldl_cons, ih, mem_insertField, List.exists_mem_cons_iff, eq_comm (a := f), or_assoc]
    exact or_left_comm

theorem pairwise_foldl_insertField (h : seen.Pairwise Field.Before) :
    (issues.foldl (fun fs i => insertField i.field fs) seen).Pairwise Field.Before := by
  induction issues generalizing seen with
  | nil => exact h
  | cons e issues ih => exact ih (pairwise_insertField h)

/-- The places of a report are those of its issues. -/
theorem mem_fields_iff {report : Report} {f : Field} :
    f ∈ report.fields ↔ report.issuesAt f ≠ [] := by
  rw [fields, mem_foldl_insertField, issuesAt, ne_eq, List.filter_eq_nil_iff]
  simp

end Report

namespace Route

/-- A report has, at each place, one issue for each rule that is violated there, in the order of the
rules. A place is marked, and is among the places of the report, if some rule is violated there; the
places come in order, each once. A route is valid if no rule is violated anywhere. -/
theorem validate_exact (r : Route) :
    (∀ f, (r.validate.issuesAt f).length = (r.rulings f).countP (fun x => !x.kept) ∧
      r.validate.issuesAt f = ((r.rulings f).filter (!·.kept)).map (·.issue) ∧
      (r.validate.marks f = true ↔ ∃ x ∈ r.rulings f, x.kept = false) ∧
      (f ∈ r.validate.fields ↔ ∃ x ∈ r.rulings f, x.kept = false)) ∧
    r.validate.fields.Pairwise Field.Before ∧
    (r.validate.isValid = true ↔ ∀ f, ∀ x ∈ r.rulings f, x.kept = true) := by
  have hmarked : ∀ f, r.validate.issuesAt f ≠ [] ↔ ∃ x ∈ r.rulings f, x.kept = false := by
    intro f
    rw [issuesAt_validate, Ruling.issues_ne_nil_iff]
  refine ⟨fun f => ⟨?_, issuesAt_validate r f, ?_, ?_⟩, ?_, ?_⟩
  · rw [issuesAt_validate, Ruling.length_issues]
  · rw [← hmarked, Report.marks, Bool.not_eq_true', List.isEmpty_eq_false_iff]
  · rw [← hmarked, Report.mem_fields_iff]
  · exact Report.pairwise_foldl_insertField List.Pairwise.nil
  · -- Each issue is about some place, so a report without issues at any place has none.
    have hnone : r.validate.isValid = true ↔ ∀ f, r.validate.issuesAt f = [] := by
      rw [Report.isValid, List.isEmpty_iff]
      constructor
      · intro h f
        rw [Report.issuesAt, h, List.filter_nil]
      · intro h
        refine List.eq_nil_iff_forall_not_mem.mpr fun e he => ?_
        exact List.filter_eq_nil_iff.mp (h e.field) e he (decide_eq_true rfl)
    rw [hnone]
    refine forall_congr' fun f => ?_
    rw [← not_iff_not, ← ne_eq, hmarked]
    simp

/-- A route with a header slot that is not used and one that is half filled. -/
def halfFilledRoute : Route where
  name := "blog"
  domain := "blog.example.com"
  backend := { url := "http://10.0.0.5:" }
  headers := [{}, { name := "a b" }]

example : halfFilledRoute.validate.issuesAt (.header 1) = [.headerName 1 "a b", .headerValue 1] := by
  decide +kernel

end Route

end RouteFleet
