import RouteFleet.Fleet.Error
import RouteFleet.Settings.Error
import RouteFleet.Settings.Starter

/-! # Why commands fail -/

namespace RouteFleet

/-- Why a command failed. -/
inductive CommandError where
  | settings (cause : SettingsError)
  | fleet (cause : FleetError)
  | starter (cause : Starter.Failure)
  | unreadable (path : String) (cause : FileError)
  | notRoute (path : String)
  /-- The rules that the route in a file breaks were shown. -/
  | rulesBroken (path : String) (count : Nat)
  /-- The rules that a route breaks were shown. -/
  | routeInvalid

namespace CommandError

/-- What is wrong, followed by all that lies behind it. -/
def message : CommandError → String
  | settings cause => Text.joinWith ": " (cause.message :: cause.causes)
  | fleet cause => Text.joinWith ": " (cause.message :: cause.causes)
  | starter cause => cause.message
  | unreadable path cause => "failed to read " ++ path ++ ": " ++ cause.message
  | notRoute path => path ++ " is not a route description: not a document of a route"
  | rulesBroken path count => path ++ " has " ++ toString count ++ " validation error(s)"
  | routeInvalid => "route description is invalid"

/-- What the operator can do about it. -/
def hint? : CommandError → Option String
  | settings cause => some cause.hint
  | fleet cause => cause.hint?
  | _ => none

/-- What the operator is told. -/
def text (e : CommandError) : String :=
  "error: " ++ e.message ++ "\n" ++
    match e.hint? with
    | some hint => "\n" ++ hint ++ "\n"
    | none => ""

end CommandError

end RouteFleet
