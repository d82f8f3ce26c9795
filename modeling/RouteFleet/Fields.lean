/-! # Fields of structures in documents

However a document is written, a structure in it comes down to a list of named fields. A structure
that is read takes the fields it knows, of which none may be there twice, and may keep the others.
-/

namespace RouteFleet

variable {α : Type}

/-- The value of the field `key`: `some none` if it is not there, `none` if it is there twice. -/
def uniqueField? (fields : List (String × α)) (key : String) : Option (Option α) :=
  match fields.filter (·.1 = key) with
  | [] => some none
  | [f] => some (some f.2)
  | _ => none

/-- The fields whose keys are not among `known`. -/
def otherFields (known : List String) (fields : List (String × α)) : List (String × α) :=
  fields.filter fun f => !known.contains f.1

/-- A field that must be there. -/
def required {β : Type} (read : α → Option β) (field : Option α) : Option β := field.bind read

end RouteFleet
