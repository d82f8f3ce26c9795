import RouteFleet.File.Error

/-! # Why the store refuses -/

namespace RouteFleet

/-- Why the store did not do what it was asked to. -/
inductive StoreError where
  | io (path : String) (cause : FileError)
  | missingFolder (path : String)
  | invalidKey (key : String)
  | badPattern (pattern : String)
  | unreadable (key : String)
  | unwritable (key : String)
deriving DecidableEq, Repr

namespace StoreError

/-- What is wrong. -/
def message : StoreError → String
  | io path cause => "config store I/O failed on " ++ path ++ ": " ++ cause.message
  | missingFolder path =>
    "config store I/O failed on " ++ path ++ ": config directory does not exist"
  | invalidKey key => "invalid config object key '" ++ key ++ "': must be a plain file stem"
  | badPattern pattern => "glob pattern error: " ++ pattern ++ ": not a pattern"
  | unreadable key => "failed to decode config object '" ++ key ++ "': not a routing graph"
  | unwritable key => "failed to encode config object '" ++ key ++ "': cannot be written"

/-- What lies behind it. -/
def causes : StoreError → List String
  | io _ cause => [cause.message]
  | missingFolder _ => ["config directory does not exist"]
  | invalidKey _ => []
  | badPattern _ => ["not a pattern"]
  | unreadable _ => ["not a routing graph"]
  | unwritable _ => ["cannot be written"]

end StoreError

end RouteFleet
