import RouteFleet.Fleet.Bulk
import RouteFleet.Settings.Basic

/-! # Bringing a fleet in line with its settings

Bootstrapping writes the shared middlewares, gives each legacy route a tag, points all routes at the
certificate resolver and, where there is nobody to ask, stops forward authentication. The stages
follow one another until one fails; what was reached before is told all the same.
-/

namespace RouteFleet

/-- Something that bootstrapping has reached. -/
inductive Milestone where
  | sharedWritten
  | migrated (old new : RouteId)
  | certResolverSet (name : String) (count : Nat)
  | forwardAuthDisabled (count : Nat)
deriving DecidableEq, Repr

/-- What was reached. -/
def Milestone.message : Milestone → String
  | sharedWritten => "✔ System middlewares written"
  | migrated old new => "✔ Migrated " ++ old.text ++ " -> " ++ new.text
  | certResolverSet name count =>
    "✔ Certificate resolver '" ++ name ++ "' (" ++ toString count ++ " object(s) rewritten)"
  | forwardAuthDisabled count =>
    "✔ Forward auth disabled (" ++ toString count ++ " object(s) rewritten)"

namespace Fleet

/-- The stages of bootstrapping, each with what it reaches. -/
def bootstrapStages (s : Settings) : List (FleetM (List Milestone)) :=
  [do writeShared s.sharedMiddlewares; return [.sharedWritten],
    do return (← migrate).map fun p => .migrated p.1 p.2,
    do return [.certResolverSet s.certResolver (← setCertResolver s.certResolver)]] ++
  if s.authEndpoint.isSome then []
  else [do return [.forwardAuthDisabled (← setForwardAuth .detach)]]

/-- Runs stages one after another until one fails, and says what was reached and whether one
failed. -/
def inTurn : List (FleetM (List Milestone)) → Fleet →
    (List Milestone × Except FleetError Unit) × Fleet
  | [], fleet => (([], .ok ()), fleet)
  | stage :: rest, fleet =>
    match stage fleet with
    | (.error e, fleet) => (([], .error e), fleet)
    | (.ok reached, fleet) =>
      let ((more, result), fleet) := inTurn rest fleet
      ((reached ++ more, result), fleet)

/-- Brings a fleet in line with its settings. -/
def bootstrap (s : Settings) (fleet : Fleet) : (List Milestone × Except FleetError Unit) × Fleet :=
  inTurn (bootstrapStages s) fleet

end Fleet

end RouteFleet
