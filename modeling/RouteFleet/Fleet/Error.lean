import RouteFleet.Compile
import RouteFleet.Projection
import RouteFleet.Store.Error
import RouteFleet.Validation.Check

/-! # Why the fleet refuses -/

namespace RouteFleet

/-- Why the fleet did not do what it was asked to. -/
inductive FleetError where
  | invalid (report : Report)
  | notFound (id : RouteId)
  | alreadyExists (name : String)
  | missingId
  | compile (id : RouteId) (cause : CompileError)
  | store (cause : StoreError)
  | projection (cause : ProjectionError)
  /-- All tags that chance brought were taken. -/
  | noTagLeft

namespace FleetError

/-- What is wrong. -/
def message : FleetError → String
  | invalid report =>
    "route description is invalid (" ++ toString report.issues.length ++ " issue(s))"
  | notFound id => "route '" ++ id.text ++ "' does not exist"
  | alreadyExists name => "a route named '" ++ name ++ "' already exists"
  | missingId => "route description carries no id"
  | compile id cause => "failed to compile route '" ++ id.text ++ "': " ++ cause.message
  | store cause => cause.message
  | projection cause => cause.message
  | noTagLeft => "no tag is left for a new route"

/-- What lies behind it, from the nearest cause to the farthest. -/
def causes : FleetError → List String
  | compile _ (.hash username cause) =>
    [(CompileError.hash username cause).message, cause.message]
  | store cause => cause.causes
  | _ => []

/-- What the operator can do about it. -/
def hint? : FleetError → Option String
  | alreadyExists _ =>
    some "Route names must be unique. Pick another name, or update the existing route."
  | notFound _ => some "List the existing routes with: waypost list"
  | missingId => some ("Updates need the `id` of the route being changed.\n\n" ++
      "Fetch it with: waypost get <id> --json")
  | store (.unreadable _) =>
    some ("A config object could not be parsed. Fix or remove it by hand; bulk\n" ++
      "operations refuse to run while any object is unreadable.")
  | store (.invalidKey _) =>
    some "Route ids are file stems inside the config directory, e.g. blog_1a2b3c4d."
  | _ => none

end FleetError

end RouteFleet
