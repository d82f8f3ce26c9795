import RouteFleet.Json.Value

/-! # The places of a route that a rule can mark

Entries of a list are marked with their position in the list, unused slots counted, so that a
message stands beside the slot it is about.
-/

namespace RouteFleet

/-- A place of a route. The order of the constructors is the order of the places. -/
inductive Field where
  | name
  | domain
  | backend
  | header (index : Nat)
  | basicAuth (index : Nat)
  | ipRestrictionDepth
  | ipRestriction (index : Nat)
deriving DecidableEq, Repr, Inhabited

namespace Field

/-- The place as a reader meets it in a message. -/
def display : Field → String
  | name => "name"
  | domain => "domain"
  | backend => "backend.url"
  | header i => "headers[" ++ toString i ++ "]"
  | basicAuth i => "basicAuth[" ++ toString i ++ "]"
  | ipRestrictionDepth => "ipRestriction.depth"
  | ipRestriction i => "ipRestriction.ips[" ++ toString i ++ "]"

/-- The place's kind, by rank, and its position. -/
def rank : Field → Nat × Nat
  | name => (0, 0)
  | domain => (1, 0)
  | backend => (2, 0)
  | header i => (3, i)
  | basicAuth i => (4, i)
  | ipRestrictionDepth => (5, 0)
  | ipRestriction i => (6, i)

/-- Places in order: by kind, then by position. -/
def le (f g : Field) : Bool :=
  f.rank.1 < g.rank.1 || (f.rank.1 == g.rank.1 && f.rank.2 ≤ g.rank.2)

/-- The place as fields of a report: its kind, and its position if it has one. -/
def toFields : Field → List (String × Json)
  | name => [("field", .ofText "name")]
  | domain => [("field", .ofText "domain")]
  | backend => [("field", .ofText "backend")]
  | header i => [("field", .ofText "header"), ("index", .ofInt i)]
  | basicAuth i => [("field", .ofText "basicAuth"), ("index", .ofInt i)]
  | ipRestrictionDepth => [("field", .ofText "ipRestrictionDepth")]
  | ipRestriction i => [("field", .ofText "ipRestriction"), ("index", .ofInt i)]

end Field

end RouteFleet
