import RouteFleet.Command.Error
import RouteFleet.Command.Request
import RouteFleet.Credential.Hasher
import RouteFleet.Fleet.Bootstrap
import RouteFleet.Reach
import RouteFleet.Route.Document
import RouteFleet.Route.Summary

/-! # Running commands

A session is all that a command can see and change: the files, what chance brings, the network, and
what was written for the operator. A command that fails leaves the session as far as it came.
-/

namespace RouteFleet

/-- What a command can see and change. -/
structure Session where
  files : FileSystem
  /-- The tags that chance will bring, the next one first. -/
  tags : List Tag
  hasher : Hasher
  /-- The host's own address, if it can be found out. -/
  hostIp : Option String := none
  /-- Which servers answer. -/
  answers : Address → Bool := fun _ => false
  /-- What was written to the operator. -/
  out : String := ""
  /-- What was written about errors. -/
  err : String := ""

/-- What runs in a session. -/
abbrev SessionM := ExceptT CommandError (StateM Session)

namespace Session

/-! ## Steps -/

/-- Writes text to the operator. -/
def print (text : String) : SessionM Unit := modify fun s => { s with out := s.out ++ text }

/-- Writes a line to the operator. -/
def printLine (text : String) : SessionM Unit := print (text ++ "\n")

/-- Writes text about errors. -/
def printError (text : String) : SessionM Unit := modify fun s => { s with err := s.err ++ text }

/-- What is seen in the session. -/
def look {α : Type} (f : Session → Except CommandError α) : SessionM α := fun s => (f s, s)

/-- The settings of a source. -/
def settings (source : SettingsSource) : SessionM Settings :=
  look fun s => (source.resolve s.files).mapError .settings

/-- The route in a file. -/
def route (path : String) : SessionM Route :=
  look fun s =>
    match s.files.readText path with
    | .error cause => .error (.unreadable path cause)
    | .ok text =>
      match Route.ofText? text with
      | some route => .ok route
      | none => .error (.notRoute path)

/-! ## The fleet -/

/-- The fleet of the settings. -/
def fleet (settings : Settings) (s : Session) : Fleet where
  store := { root := settings.configDir, content := s.files.folder settings.configDir }
  tags := s.tags
  compiler := { certResolver := settings.certResolver, hasher := s.hasher, hostIp := s.hostIp }

/-- The session with a fleet's objects in their folder. -/
def withFleet (settings : Settings) (fleet : Fleet) (s : Session) : Session :=
  match s.files.locate settings.configDir, fleet.store.content with
  | .ok place, .ok entries =>
    { s with files := s.files.withFiles place entries, tags := fleet.tags }
  | _, _ => { s with tags := fleet.tags }

/-- Runs an operation on the fleet of the settings. -/
def onFleet {α : Type} (settings : Settings) (op : FleetM α) : SessionM α := fun s =>
  let (result, fleet) := op (s.fleet settings)
  (result.mapError .fleet, s.withFleet settings fleet)

/-- Brings the fleet of the settings in line with them. -/
def bootstrap (settings : Settings) : SessionM Unit := do
  let ((reached, result), fleet) := Fleet.bootstrap settings ((← get).fleet settings)
  modify (withFleet settings fleet)
  reached.forM fun milestone => printLine milestone.message
  match result with
  | .ok () => return
  | .error cause => throw (.fleet cause)

/-- Shows which rules a route breaks instead of failing because of them. -/
def showingRules (result : SessionM StoredRoute) : SessionM StoredRoute :=
  tryCatch result fun e =>
    match e with
    | .fleet (.invalid report) => do
      printError report.renderPretty
      throw .routeInvalid
    | e => throw e

/-! ## Commands -/

/-- Writes settings to start from. -/
def init (path : String) : SessionM Unit := do
  let (result, files) := Starter.create path (← get).files
  modify fun s => { s with files := files }
  match result with
  | .error cause => throw (.starter cause)
  | .ok () =>
    printLine ("✔ Initialized waypost in " ++ path)
    printLine "✔ Created:"
    printLine ("  - " ++ Settings.fileName)
    printLine ("  - " ++ Starter.folderName ++ "/")
    printLine ""
    printLine "Next steps:"
    printLine ("  point the proxy's file provider at " ++ Starter.folderName)
    printLine "  waypost bootstrap"

/-- Shows all routes. -/
def list (settings : Settings) (probe json : Bool) : SessionM Unit := do
  let routes ← onFleet settings Fleet.descriptions
  let answers := (← get).answers
  let routes := if probe then routes.map (·.probed answers) else routes
  if json then printLine (Json.array (routes.map Route.toJson)).pretty
  else if routes.isEmpty then printLine "no routes"
  else routes.forM fun r => printLine (r.summary probe)

/-- Tells which rules the route in a file breaks. -/
def check (path : String) (format : Report.Format) : SessionM Unit := do
  let report := (← route path).validate
  let rendered := Text.trimEnd (report.render format) ++ "\n"
  if report.isValid then print rendered
  else
    printError rendered
    throw (.rulesBroken path report.issues.length)

/-- The route under an identity. -/
def stored (settings : Settings) (id : RouteId) : SessionM StoredRoute := do
  match ← onFleet settings (Fleet.get? id) with
  | some stored => return stored
  | none => throw (.fleet (.notFound id))

/-- Shows one route, as its operator describes it or as it is stored. -/
def describe (settings : Settings) (id : RouteId) (yaml : Bool) : SessionM Unit := do
  let stored ← stored settings id
  if yaml then
    match stored.graph.toText? with
    | some text => print text
    | none => throw (.fleet (.store (.unwritable id.text)))
  else
    let route ← onFleet settings (Fleet.describe stored)
    printLine route.toText

/-- Runs a command. -/
def run : Command → SessionM Unit
  | .init path => init path
  | .bootstrap source => do bootstrap (← settings source)
  | .list source probe json => do list (← settings source) probe json
  | .check path format => check path format
  | .get source id yaml => do describe (← settings source) id yaml
  | .add source path => do
    let settings ← settings source
    let route ← route path
    let stored ← showingRules (onFleet settings (Fleet.add route))
    printLine ("✔ Added " ++ stored.id.text)
  | .update source path => do
    let settings ← settings source
    let route ← route path
    let stored ← showingRules (onFleet settings (Fleet.update route))
    printLine ("✔ Updated " ++ stored.id.text)
  | .delete source id => do
    onFleet (← settings source) (Fleet.delete id)
    printLine ("✔ Deleted " ++ id.text)

/-- The servers that a command would like to see answer. -/
def probed : Command → Session → List Address
  | .list source true _, s =>
    let routes : SessionM (List Route) := do onFleet (← settings source) Fleet.descriptions
    match routes s with
    | (.ok routes, _) => routes.filterMap (·.backend.address?)
    | (.error _, _) => []
  | _, _ => []

/-! ## Answers -/

/-- How the program is used. -/
def usage : String :=
  "Usage: waypost <COMMAND>\n\n" ++
  "Commands:\n" ++
  "  init       Write a starter settings file and config directory\n" ++
  "  bootstrap  Write system middlewares, migrate old objects, apply settings fleet-wide\n" ++
  "  list       List every route\n" ++
  "  check      Validate a route description (JSON) and exit\n" ++
  "  get        Show one route\n" ++
  "  add        Create a route from a description file\n" ++
  "  update     Replace a route; the file must carry its id\n" ++
  "  delete     Remove a route\n"

/-- The version of the program. -/
def version : String := "waypost 0.3.0"

/-- Does what a command line asks for. The number is zero if it was done, one if it failed, and two if
nobody knows what was asked for. -/
def answer (words : List String) (s : Session) : UInt32 × Session :=
  match Request.ofWords? words with
  | none => (2, { s with err := s.err ++ usage })
  | some .help => (0, { s with out := s.out ++ usage })
  | some .version => (0, { s with out := s.out ++ version ++ "\n" })
  | some (.run command) =>
    match run command s with
    | (.ok (), s) => (0, s)
    | (.error e, s) => (1, { s with err := s.err ++ e.text })

end Session

end RouteFleet
