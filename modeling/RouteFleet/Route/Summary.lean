import RouteFleet.Route.Basic
import RouteFleet.Text.Style

/-! # Routes on one line -/

namespace RouteFleet.Route

open Text

/-- The words for what a route has switched on. -/
def features (r : Route) : List String :=
  (if r.forceTls then ["forceTLS"] else []) ++
  (if r.hsts then ["hsts"] else []) ++
  (if r.forwardAuth then ["forwardAuth"] else []) ++
  (if r.activeCredentials.isEmpty then [] else ["basicAuth"]) ++
  (if r.ipRestriction.isSome then ["ipRestriction"] else [])

/-- A route on one line. If it was `probed`, the line tells whether its backend answers. -/
def summary (probed : Bool) (r : Route) : String :=
  bold ((r.id.map RouteId.text).getD "-") ++ "  " ++
    (if r.https then "https" else "http") ++ "://" ++ r.domain ++ " -> " ++ r.backend.url ++
    (if r.features.isEmpty then "" else "  [" ++ joinWith ", " r.features ++ "]") ++
    (if probed then "  " ++ (if r.backend.healthy then green "up" else red "down") else "")

end RouteFleet.Route
