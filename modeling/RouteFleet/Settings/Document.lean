import RouteFleet.Hcl.Body
import RouteFleet.Hcl.Object
import RouteFleet.Settings.Basic

/-! # Settings as they are written

Settings are HCL with one `server`, a block or an object. What else a file says is passed over.
-/

namespace RouteFleet.Settings

open Hcl

/-- What one field of an object is set to, if it is; nothing can be said if it is set twice. -/
def field? (name : String) (entries : List (Expression × Expression)) :
    Option (Option Expression) :=
  match entries.filter (·.1.asKey = name) with
  | [] => some none
  | [(_, value)] => some (some value)
  | _ => none

/-- A port: a whole number that fits. -/
def port? : Expression → Option UInt16
  | .integer n => if 0 ≤ n && n < 65536 then some (UInt16.ofNat n.toNat) else none
  | _ => none

/-- Settings of what their fields are set to. -/
def ofValues? (configDir certResolver listenPort authEndpoint : Option Expression) :
    Option Settings := do
  let port ← match listenPort with
    | some value => port? value
    | none => some defaultListenPort
  return {
    configDir := (← configDir).asText
    certResolver := (← certResolver).asText
    listenPort := port
    authEndpoint := match authEndpoint with
      | some .null => none
      | value => value.map Expression.asText }

/-- Settings of what a server is set to: an object, or values without names in the order of the fields,
of which others may follow. -/
def ofServer? : Expression → Option Settings
  | .object entries => do
    ofValues? (← field? "config_dir" entries) (← field? "cert_resolver" entries)
      (← field? "listen_port" entries) (← field? "auth_endpoint" entries)
  | .array items => ofValues? items[0]? items[1]? items[2]? items[3]?
  | _ => none

/-- Settings of a body. -/
def ofBody? (body : Body) : Option Settings := do
  match ← field? "server" body.toEntries with
  | some server => ofServer? server
  | none => none

/-- Settings of a text. -/
def ofText? (text : String) : Option Settings := (Hcl.read? text).bind ofBody?

end RouteFleet.Settings
