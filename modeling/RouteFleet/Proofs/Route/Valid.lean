import RouteFleet.Validation.Check

/-! # Valid routes

A route is valid if each of its fields keeps its rules; unused slots keep all of them
(`Route.isValid_validate_iff`).
-/

namespace RouteFleet

open Rule

namespace Route

/-! ## Reports without issues -/

theorem issueUnless_eq_nil {kept : Bool} {issue : Issue} :
    issueUnless kept issue = [] ↔ kept = true := by
  cases kept <;> simp [issueUnless]

theorem checkEach_eq_nil {α : Type} {check : Nat → α → List Issue} {p : α → Prop}
    (h : ∀ i a, check i a = [] ↔ p a) (i : Nat) (l : List α) :
    checkEach check i l = [] ↔ ∀ a ∈ l, p a := by
  induction l generalizing i with
  | nil => simp [checkEach]
  | cons a l ih => simp [checkEach, h, ih]

theorem checkCredential_eq_nil (i : Nat) (c : Credential) :
    checkCredential i c = [] ↔
      (c.isEmpty = false → isUsername c.username = true ∧ isPassword c.password = true) := by
  cases h : c.isEmpty <;> simp [checkCredential, h, issueUnless_eq_nil]

theorem checkHeader_eq_nil (i : Nat) (h : HeaderEntry) :
    checkHeader i h = [] ↔
      (h.isEmpty = false → isHeaderName h.name = true ∧ isHeaderValue h.value = true) := by
  cases he : h.isEmpty <;> simp [checkHeader, he, issueUnless_eq_nil]

theorem checkIp_eq_nil (i : Nat) (ip : String) :
    checkIp i ip = [] ↔ (ip ≠ "" → isIpEntry ip = true) := by
  by_cases h : ip = "" <;> simp [checkIp, h, issueUnless_eq_nil]

theorem checkRange_eq_nil {value : Int} {range : Range} {field : Field} :
    Report.checkRange value range field = [] ↔ range.min ≤ value ∧ value ≤ range.max := by
  rw [Report.checkRange, ← Bool.decide_or]
  by_cases h : value < range.min ∨ value > range.max
  · rw [if_pos (decide_eq_true h)]
    exact iff_of_false (List.cons_ne_nil _ _) (by omega)
  · rw [if_neg (mt decide_eq_true_iff.mp h)]
    exact iff_of_true rfl (by omega)

theorem checkRestriction_eq_nil (r : IpRestriction) :
    checkRestriction r = [] ↔ (0 ≤ r.depth.toInt ∧ r.depth.toInt ≤ 30) ∧
      ∀ ip ∈ r.ips, ip ≠ "" → isIpEntry ip = true := by
  rw [checkRestriction, List.append_eq_nil_iff, checkEach_eq_nil checkIp_eq_nil]
  exact and_congr_left fun _ => checkRange_eq_nil

/-! ## Valid routes -/

/-- What the rules ask of a route. -/
structure Valid (r : Route) : Prop where
  name : isName r.name = true
  domain : isDomain r.domain = true
  backend : isBackendUrl r.backend.url = true
  credential : ∀ c ∈ r.basicAuth, c.isEmpty = false →
    isUsername c.username = true ∧ isPassword c.password = true
  restriction : ∀ i, r.ipRestriction = some i → (0 ≤ i.depth.toInt ∧ i.depth.toInt ≤ 30) ∧
    ∀ ip ∈ i.ips, ip ≠ "" → isIpEntry ip = true
  header : ∀ h ∈ r.headers, h.isEmpty = false →
    isHeaderName h.name = true ∧ isHeaderValue h.value = true

/-- No rule is violated exactly if each field keeps its rules. -/
theorem isValid_validate_iff (r : Route) : r.validate.isValid = true ↔ r.Valid := by
  simp only [validate, Report.isValid, List.isEmpty_iff, List.append_eq_nil_iff,
    issueUnless_eq_nil, checkEach_eq_nil checkCredential_eq_nil,
    checkEach_eq_nil checkHeader_eq_nil]
  constructor
  · rintro ⟨⟨⟨⟨⟨hn, hd⟩, hb⟩, hc⟩, hr⟩, hh⟩
    refine ⟨hn, hd, hb, hc, fun i hi => ?_, hh⟩
    rw [hi] at hr
    exact (checkRestriction_eq_nil i).mp hr
  · intro h
    refine ⟨⟨⟨⟨⟨h.name, h.domain⟩, h.backend⟩, h.credential⟩, ?_⟩, h.header⟩
    cases hi : r.ipRestriction with
    | none => rfl
    | some i => exact (checkRestriction_eq_nil i).mpr (h.restriction i hi)

/-! ## What the rules leave out -/

theorem Valid.of_isValid {r : Route} (h : r.validate.isValid = true) : r.Valid :=
  (isValid_validate_iff r).mp h

/-- The user's name of an active credential has no colon in it. -/
theorem Valid.colon_notMem {r : Route} (h : r.Valid) {c : Credential}
    (hc : c ∈ r.activeCredentials) : ':' ∉ c.username.toList := by
  simp only [activeCredentials, List.mem_filter, Bool.not_eq_true'] at hc
  have huser := (h.credential c hc.1 hc.2).1
  simp only [isUsername, within, Bool.and_eq_true, List.all_eq_true] at huser
  exact fun hm => absurd (huser.2 _ hm) (by decide)

/-- The user's name of an active credential is not empty. -/
theorem Valid.username_ne_empty {r : Route} (h : r.Valid) {c : Credential}
    (hc : c ∈ r.activeCredentials) : c.username ≠ "" := by
  simp only [activeCredentials, List.mem_filter, Bool.not_eq_true'] at hc
  have huser := (h.credential c hc.1 hc.2).1
  intro hempty
  rw [hempty] at huser
  exact absurd huser (by decide)

section ActiveHeader

variable {r : Route} {e : HeaderEntry}

/-- An active header keeps its rules. -/
theorem Valid.activeHeader (h : r.Valid) (he : e ∈ r.activeHeaders) :
    isHeaderName e.name = true ∧ isHeaderValue e.value = true := by
  simp only [activeHeaders, List.mem_filter, Bool.not_eq_true'] at he
  exact h.header e he.1 he.2

/-- The name of an active header is not empty. -/
theorem Valid.headerName_ne_empty (h : r.Valid) (he : e ∈ r.activeHeaders) : e.name ≠ "" := by
  have hname := (h.activeHeader he).1
  intro hempty
  rw [hempty] at hname
  exact absurd hname (by decide)

/-- The value of an active header is not empty. -/
theorem Valid.headerValue_ne_empty (h : r.Valid) (he : e ∈ r.activeHeaders) : e.value ≠ "" := by
  have hvalue := (h.activeHeader he).2
  intro hempty
  rw [hempty] at hvalue
  exact absurd hvalue (by decide)

end ActiveHeader

end Route

end RouteFleet
