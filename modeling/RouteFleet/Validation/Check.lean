import RouteFleet.Route.Basic
import RouteFleet.Validation.Report
import RouteFleet.Validation.Rule

/-! # Checking a route against the rules

All rules are looked at, also after one was found violated. Unused slots are passed over but keep
their positions.
-/

namespace RouteFleet

open Rule

/-- The bounds of the depth of an address restriction. -/
def IpRestriction.depthRange : Range := ⟨0, 30, "ipRestriction.depth", some " hops"⟩

namespace Route

/-- An issue, if the rule it belongs to is not kept. -/
def issueUnless (kept : Bool) (issue : Issue) : List Issue := if kept then [] else [issue]

/-- The violations in the credential at position `i`. -/
def checkCredential (i : Nat) (c : Credential) : List Issue :=
  if c.isEmpty then []
  else issueUnless (isUsername c.username) (.username i c.username) ++
    issueUnless (isPassword c.password) (.password i)

/-- The violations in the header at position `i`. -/
def checkHeader (i : Nat) (h : HeaderEntry) : List Issue :=
  if h.isEmpty then []
  else issueUnless (isHeaderName h.name) (.headerName i h.name) ++
    issueUnless (isHeaderValue h.value) (.headerValue i)

/-- The violation, if any, in the address at position `i`. -/
def checkIp (i : Nat) (ip : String) : List Issue :=
  if ip = "" then [] else issueUnless (isIpEntry ip) (.ipEntry i ip)

/-- What `check` says of each entry, the first of which stands at position `i`. -/
def checkEach {α : Type} (check : Nat → α → List Issue) (i : Nat) : List α → List Issue
  | [] => []
  | a :: rest => check i a ++ checkEach check (i + 1) rest

/-- The violations in an address restriction. -/
def checkRestriction (r : IpRestriction) : List Issue :=
  Report.checkRange r.depth.toInt IpRestriction.depthRange .ipRestrictionDepth ++
    checkEach checkIp 0 r.ips

/-- The report on a route. -/
def validate (r : Route) : Report :=
  ⟨issueUnless (isName r.name) (.name r.name) ++
    issueUnless (isDomain r.domain) (.domain r.domain) ++
    issueUnless (isBackendUrl r.backend.url) (.backendUrl r.backend.url) ++
    checkEach checkCredential 0 r.basicAuth ++
    (match r.ipRestriction with
      | some restriction => checkRestriction restriction
      | none => []) ++
    checkEach checkHeader 0 r.headers⟩

end Route

end RouteFleet
