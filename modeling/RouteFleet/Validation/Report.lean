import RouteFleet.Json.Printer
import RouteFleet.Text.Style
import RouteFleet.Validation.Field

/-! # Reports on a route

A report is the list of all violations found, in the order in which the rules were looked at. It
can be written plainly, for a terminal, or as a document.
-/

namespace RouteFleet

/-! ## Issues -/

/-- Bounds of a number, and how messages speak of it. -/
structure Range where
  min : Int
  max : Int
  label : String
  units : Option String
deriving DecidableEq, Repr

/-- A violated rule, with what violated it. -/
inductive Issue where
  | name (text : String)
  | domain (text : String)
  | backendUrl (text : String)
  | headerName (index : Nat) (text : String)
  | headerValue (index : Nat)
  | username (index : Nat) (text : String)
  | password (index : Nat)
  | outOfRange (field : Field) (range : Range) (value : Int)
  | ipEntry (index : Nat) (text : String)
deriving DecidableEq, Repr

namespace Issue

/-- The place that the violated rule is about. -/
def field : Issue → Field
  | name _ => .name
  | domain _ => .domain
  | backendUrl _ => .backend
  | headerName i _ | headerValue i => .header i
  | username i _ | password i => .basicAuth i
  | outOfRange f _ _ => f
  | ipEntry i _ => .ipRestriction i

/-- What is wrong. -/
def message : Issue → String
  | name s => "invalid name: '" ++ s ++ "'"
  | domain s => "not a valid domain name: '" ++ s ++ "'"
  | backendUrl s => "invalid backend url: '" ++ s ++ "'"
  | headerName _ s => "invalid header name: '" ++ s ++ "'"
  | headerValue _ => "header value must be between 3 and 128 characters"
  | username _ s => "invalid username: '" ++ s ++ "'"
  | password _ => "password must be between 1 and 128 characters"
  | outOfRange _ r value =>
    let units := r.units.getD ""
    "invalid " ++ r.label ++ ": " ++ toString value ++ units ++ " (must be between " ++
      toString r.min ++ units ++ " and " ++ toString r.max ++ units ++ ")"
  | ipEntry _ s => "not a valid IPv4 address or CIDR range: '" ++ s ++ "'"

/-- How to mend it, where there is something to say. -/
def help? : Issue → Option String
  | name _ => some "Use 3 to 32 letters, digits or hyphens."
  | domain _ => some "Example: blog.example.com"
  | backendUrl _ => some "Format: http://192.168.1.12:5000"
  | headerName _ _ => some "Use 1 to 64 letters, digits, '-' or '_'."
  | headerValue _ => none
  | username _ _ => some "Use 3 to 32 letters or digits."
  | password _ => none
  | outOfRange _ _ _ => none
  | ipEntry _ _ => some "Example: 192.168.1.0/24"

/-- The issue as a document. -/
def toJson (i : Issue) : Json :=
  .ofFields (i.field.toFields ++ [("message", .ofText i.message)] ++
    match i.help? with
    | some help => [("help", .ofText help)]
    | none => [])

end Issue

/-! ## Reports -/

/-- All violations found in one route. -/
structure Report where
  issues : List Issue
deriving DecidableEq, Repr, Inhabited

namespace Report

open Text

/-- The violation, if any, of a range by a value, as a list. -/
def checkRange (value : Int) (range : Range) (field : Field) : List Issue :=
  if value < range.min || value > range.max then [.outOfRange field range value] else []

/-- Whether no rule is violated. -/
def isValid (r : Report) : Bool := r.issues.isEmpty

/-- The violations at a place. -/
def issuesAt (r : Report) (f : Field) : List Issue := r.issues.filter (·.field = f)

/-- Whether a rule is violated at a place. -/
def marks (r : Report) (f : Field) : Bool := !(r.issuesAt f).isEmpty

/-- Enters a place into a list of places in ascending order, unless it is there already. -/
def insertField (f : Field) : List Field → List Field
  | [] => [f]
  | g :: rest => if f = g then g :: rest else if f.le g then f :: g :: rest
    else g :: insertField f rest

/-- The marked places, each once, in order. -/
def fields (r : Report) : List Field := r.issues.foldl (fun fs i => insertField i.field fs) []

/-! ## Renderings -/

/-- The report as a document. -/
def toJson (r : Report) : Json :=
  .ofFields [("valid", .bool r.isValid), ("errors", .array (r.issues.map Issue.toJson))]

/-- The report as the text of a document. -/
def renderJson (r : Report) : String := r.toJson.pretty

/-- A line for each violation, and one for its help. -/
def renderPlain (r : Report) : String :=
  String.join (r.issues.map fun i =>
    i.field.display ++ ": error: " ++ i.message ++ "\n" ++
      match i.help? with
      | some help => "  help: " ++ help ++ "\n"
      | none => "")

/-- The violations by place, in the style of a terminal. -/
def renderPretty (r : Report) : String :=
  if r.isValid then green "✔" ++ " route description is valid\n"
  else
    "route validation failed (" ++ toString r.issues.length ++ " errors)\n\n" ++
      String.join (r.fields.map fun f =>
        bold f.display ++ "\n" ++
          String.join ((r.issuesAt f).map fun i =>
            "  " ++ bold (red "error") ++ ": " ++ i.message ++ "\n" ++
              match i.help? with
              | some help => "  " ++ cyan "help" ++ ": " ++ help ++ "\n"
              | none => "") ++ "\n")

/-- How a report is rendered. -/
inductive Format where
  | pretty
  | plain
  | json
deriving DecidableEq, Repr

/-- A report in one of its renderings. -/
def render (r : Report) : Format → String
  | .pretty => r.renderPretty
  | .plain => r.renderPlain
  | .json => r.renderJson

end Report

end RouteFleet
