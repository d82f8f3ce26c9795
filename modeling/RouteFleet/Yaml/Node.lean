import RouteFleet.Yaml.Scalar

/-! # YAML nodes

A `Node` is a document as it is written: scalars with their text and the word whether they stand
unquoted, collections with their parts, and a tag where one is given. What a scalar means is asked
by whoever reads it: a reader that wants a text takes its text, a reader that wants a value of any
kind asks `Node.toValue?`.
-/

namespace RouteFleet.Yaml

open Text

/-- A document as written. -/
inductive Node where
  | scalar (tag : Option String) (plain : Bool) (text : String)
  | sequence (tag : Option String) (items : List Node)
  | mapping (tag : Option String) (entries : List (Node × Node))
deriving Repr, Inhabited

namespace Node

/-- The name of a tag that the document's author made up; `none` if the tag is another. -/
def ownTag? (tag : Option String) : Option String := tag.bind (stripLead? "!")

/-- A made-up tag's name without a mark that was given twice. A tag that is nothing but its mark is
named by it. -/
def tagName (name : String) : String :=
  if name = "" then "!"
  else
    match stripLead? "!" name with
    | some "" => name
    | some rest => rest
    | none => name

/-- The value of a scalar that has no tag of its author's making. -/
def scalarValue? (tag : Option String) (plain : Bool) (s : String) : Option Value :=
  match tag with
  | some "tag:yaml.org,2002:bool" => (Meaning.bool? s).map .bool
  | some "tag:yaml.org,2002:int" =>
    match Meaning.integer? s.toList with
    | some n => (Meaning.integer n).toValue? s
    | none => none
  | some "tag:yaml.org,2002:float" => (Meaning.real? s.toList).map fun r => .number (.real r)
  | some "tag:yaml.org,2002:null" => if Meaning.isNull s then some .null else none
  | some _ => some (.string s)
  | none => if plain then (Meaning.ofPlain s).toValue? s else some (.string s)

/-- Puts a value under a made-up tag: under none if there is none. Tags are refused where `tags`
does not hold. -/
def withTag? (tags : Bool) (tag : Option String) (content : Option Value) : Option Value :=
  match ownTag? tag with
  | none => content
  | some name => if tags then content.map (.tagged (tagName name)) else none

/-- Whether one of the entries has a key alike `k`. -/
def hasKeyLike (k : Value) (entries : List (Value × Value)) : Bool := entries.any (·.1.like k)

mutual

/-- The value of a node. Entries of a mapping with keys alike are refused. -/
def toValue? (tags : Bool) : Node → Option Value
  | .scalar tag plain s =>
    match ownTag? tag with
    | none => scalarValue? tag plain s
    | some _ => withTag? tags tag (scalarValue? none plain s)
  | .sequence tag items => withTag? tags tag ((toValues? tags items).map .sequence)
  | .mapping tag entries => withTag? tags tag ((toEntries? tags entries).map .mapping)

/-- The values of some nodes. -/
def toValues? (tags : Bool) : List Node → Option (List Value)
  | [] => some []
  | n :: rest => do
    let v ← toValue? tags n
    let vs ← toValues? tags rest
    return v :: vs

/-- The entries of a mapping. -/
def toEntries? (tags : Bool) : List (Node × Node) → Option (List (Value × Value))
  | [] => some []
  | (k, n) :: rest => do
    let key ← toValue? tags k
    let v ← toValue? tags n
    let more ← toEntries? tags rest
    if hasKeyLike key more then none else return (key, v) :: more

end

end Node

end RouteFleet.Yaml
