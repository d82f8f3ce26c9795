import RouteFleet.Command.Words
import RouteFleet.Settings.Load
import RouteFleet.Settings.Starter
import RouteFleet.Validation.Report

/-! # What can be asked for on a command line -/

namespace RouteFleet

/-- What the program can be told to do. -/
inductive Command where
  /-- Writes settings to start from. -/
  | init (path : String)
  /-- Brings the fleet in line with its settings. -/
  | bootstrap (source : SettingsSource)
  /-- Shows all routes. -/
  | list (source : SettingsSource) (probe json : Bool)
  /-- Tells which rules a route breaks. -/
  | check (path : String) (format : Report.Format)
  /-- Shows one route. -/
  | get (source : SettingsSource) (id : RouteId) (yaml : Bool)
  /-- Stores a new route. -/
  | add (source : SettingsSource) (path : String)
  /-- Replaces a route. -/
  | update (source : SettingsSource) (path : String)
  /-- Removes a route. -/
  | delete (source : SettingsSource) (id : RouteId)
deriving DecidableEq, Repr

/-- What can be asked for. -/
inductive Request where
  | version
  | help
  | run (command : Command)
deriving DecidableEq, Repr

namespace Command

/-! ## What a command looks at -/

/-- Where the settings of a command come from. -/
def source? : Command → Option SettingsSource
  | bootstrap source | list source _ _ | get source _ _ | add source _ | update source _
  | delete source _ => some source
  | init _ | check _ _ => none

/-- The paths of the files that a command looks at, those of the fleet apart. -/
def paths : Command → List String
  | init path => [Path.join path Settings.fileName, Path.join path Starter.folderName]
  | check path _ => [path]
  | add source path | update source path => [source.path, path]
  | bootstrap source | list source _ _ | get source _ _ | delete source _ => [source.path]

/-- The folder of the fleet that a command is about. -/
def folder? (files : FileSystem) (c : Command) : Option String := do
  let source ← c.source?
  match source.read files with
  | .ok settings => some settings.configDir
  | .error _ => none

/-! ## Grammars -/

/-- The options that say where settings come from. -/
def settingsOptions : List (String × ValueKind) :=
  [("settings", .path), ("config-dir", .path), ("cert-resolver", .text)]

/-- What each command may be given, by its name. -/
def grammars : List (String × Grammar) :=
  [("init", { operands := [.path] }),
    ("bootstrap", { options := settingsOptions }),
    ("list", { flags := ["probe", "json"], options := settingsOptions }),
    ("check", { flags := ["plain", "json"], letters := [('p', "plain")], operands := [.path] }),
    ("get", { flags := ["yaml"], options := settingsOptions, operands := [.text] }),
    ("add", { options := settingsOptions, operands := [.path] }),
    ("update", { options := settingsOptions, operands := [.path] }),
    ("delete", { options := settingsOptions, operands := [.text] })]

/-- Where settings come from. -/
def Given.source (g : Given) : SettingsSource where
  path := (g.value? "settings").getD Settings.fileName
  configDir := g.value? "config-dir"
  certResolver := g.value? "cert-resolver"

/-- The format of a report. Two formats at a time cannot be had. -/
def Given.format? (g : Given) : Option Report.Format :=
  match g.has "plain", g.has "json" with
  | true, true => none
  | true, false => some .plain
  | false, true => some .json
  | false, false => some .pretty

/-- The command of a name, with what it is given. -/
def ofGiven? (name : String) (g : Given) : Option Command :=
  match name, g.operands with
  | "init", [] => some (.init ".")
  | "init", [path] => some (.init path)
  | "bootstrap", [] => some (.bootstrap g.source)
  | "list", [] => some (.list g.source (g.has "probe") (g.has "json"))
  | "check", [path] => g.format?.map (.check path)
  | "get", [id] => some (.get g.source ⟨id⟩ (g.has "yaml"))
  | "add", [path] => some (.add g.source path)
  | "update", [path] => some (.update g.source path)
  | "delete", [id] => some (.delete g.source ⟨id⟩)
  | _, _ => none

end Command

namespace Request

open Command

/-- Reads what follows the name of a command. -/
def ofCommand? (name : String) (words : List String) : Option Request := do
  let grammar ← grammars.lookup name
  match ← grammar.read words with
  | .help => return .help
  | .given g => return .run (← Command.ofGiven? name g)

/-- Reads the words after `help`: at most the name of a command. -/
def ofHelp? : List String → Option Request
  | [] => some .help
  | [name] => if name = "help" || (grammars.lookup name).isSome then some .help else none
  | _ => none

/-- Reads a command line. -/
def ofWords? : List String → Option Request
  | [] => none
  | w :: rest =>
    match Word.ofText w with
    | .plain name => if name = "help" then ofHelp? rest else ofCommand? name rest
    | .long "help" none => some .help
    | .long "version" none => some .version
    | .short ('h' :: _) => some .help
    | .short ('V' :: _) => some .version
    | _ => none

end Request

end RouteFleet
