import RouteFleet.Hcl.Expression

/-! # Bodies as objects

What a body says can be said by an object. An attribute is an entry; a block is an entry with its body,
inside objects for its labels. Blocks with the same name and labels are the items of an array, and
those with the same name share the objects for their labels. Of an attribute and a block, or of blocks
with and without a label in the same place, the later one counts.
-/

namespace RouteFleet.Hcl

/-- What a name stands for. -/
inductive Meaning where
  | value (e : Expression)
  /-- Blocks without labels, as objects. -/
  | blocks (bodies : List Expression)
  /-- Blocks with labels, of which the first ones are the names. -/
  | labelled (entries : List (String × Meaning))
deriving Inhabited

/-- Changes what a name stands for; a name that stands for nothing yet comes last. -/
def setMeaning (name : String) (f : Option Meaning → Meaning) :
    List (String × Meaning) → List (String × Meaning)
  | [] => [(name, f none)]
  | (n, m) :: rest =>
    if n = name then (n, f (some m)) :: rest else (n, m) :: setMeaning name f rest

namespace Meaning

/-- What a name stands for after another block. -/
def addBlock (body : Expression) : List String → Option Meaning → Meaning
  | [], some (.blocks bodies) => .blocks (bodies ++ [body])
  | [], _ => .blocks [body]
  | label :: labels, some (.labelled entries) =>
    .labelled (setMeaning label (addBlock body labels) entries)
  | label :: labels, _ => .labelled [(label, addBlock body labels none)]

mutual

/-- The expression that says what a name stands for. -/
def toExpression : Meaning → Expression
  | .value e => e
  | .blocks [body] => body
  | .blocks bodies => .array bodies
  | .labelled entries => .object (toEntries entries)

/-- The entries of an object for some names. -/
def toEntries : List (String × Meaning) → List (Expression × Expression)
  | [] => []
  | (name, m) :: rest => (.string name, toExpression m) :: toEntries rest

end

end Meaning

mutual

/-- What names stand for after another part of a body. -/
def Item.addTo (entries : List (String × Meaning)) : Item → List (String × Meaning)
  | .attribute name e => setMeaning name (fun _ => .value e) entries
  | .block name labels body =>
    setMeaning name (Meaning.addBlock (.object (Meaning.toEntries (Body.meanings body []))) labels)
      entries

/-- What names stand for after other parts of a body. -/
def Body.meanings : List Item → List (String × Meaning) → List (String × Meaning)
  | [], entries => entries
  | item :: rest, entries => Body.meanings rest (item.addTo entries)

end

/-- The entries of the object that says what a body says. -/
def Body.toEntries (body : Body) : List (Expression × Expression) :=
  Meaning.toEntries (Body.meanings body [])

end RouteFleet.Hcl
