import RouteFleet.Json.Value

/-! # Writing JSON documents

`pretty` writes a document over several lines, two spaces for each level; `compact` writes it on
one line without blanks. An empty array or object has no line of its own in either form.
-/

namespace RouteFleet.Json

/-- The blanks at the beginning of a line at a level. -/
def indentation (level : Nat) : String := String.ofList (List.replicate (2 * level) ' ')

mutual

/-- Writes a document whose first line is already indented to `level`. -/
def prettyAt (level : Nat) : Json → String
  | .null => "null"
  | .bool b => if b then "true" else "false"
  | .number literal => literal
  | .string literal => "\"" ++ literal ++ "\""
  | .array [] => "[]"
  | .array (item :: items) =>
    "[\n" ++ indentation (level + 1) ++ prettyAt (level + 1) item ++
      prettyItems (level + 1) items ++ "\n" ++ indentation level ++ "]"
  | .object [] => "\x7b\x7d"
  | .object ((key, value) :: fields) =>
    "\x7b\n" ++ indentation (level + 1) ++ "\"" ++ key ++ "\": " ++ prettyAt (level + 1) value ++
      prettyFields (level + 1) fields ++ "\n" ++ indentation level ++ "\x7d"

/-- Writes the items after the first. -/
def prettyItems (level : Nat) : List Json → String
  | [] => ""
  | item :: items =>
    ",\n" ++ indentation level ++ prettyAt level item ++ prettyItems level items

/-- Writes the fields after the first. -/
def prettyFields (level : Nat) : List (String × Json) → String
  | [] => ""
  | (key, value) :: fields =>
    ",\n" ++ indentation level ++ "\"" ++ key ++ "\": " ++ prettyAt level value ++
      prettyFields level fields

end

/-- Writes a document over several lines. -/
def pretty (document : Json) : String := prettyAt 0 document

mutual

/-- Writes a document on one line. -/
def compact : Json → String
  | .null => "null"
  | .bool b => if b then "true" else "false"
  | .number literal => literal
  | .string literal => "\"" ++ literal ++ "\""
  | .array [] => "[]"
  | .array (item :: items) => "[" ++ compact item ++ compactItems items ++ "]"
  | .object [] => "\x7b\x7d"
  | .object ((key, value) :: fields) =>
    "\x7b\"" ++ key ++ "\":" ++ compact value ++ compactFields fields ++ "\x7d"

/-- Writes the items after the first. -/
def compactItems : List Json → String
  | [] => ""
  | item :: items => "," ++ compact item ++ compactItems items

/-- Writes the fields after the first. -/
def compactFields : List (String × Json) → String
  | [] => ""
  | (key, value) :: fields => ",\"" ++ key ++ "\":" ++ compact value ++ compactFields fields

end

end RouteFleet.Json
