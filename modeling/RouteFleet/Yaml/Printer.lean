import RouteFleet.Yaml.Style

/-! # Writing YAML documents

Collections are written as blocks, two spaces for each level; the items of a sequence are not
indented below its key. Lines are never folded. A key is written before its colon if it is short and
on one line; any other key has a question mark before it, and its value a line of its own.
-/

namespace RouteFleet.Yaml

open Text

namespace Value

/-! ## Scalars and tags -/

/-- Characters that stand for themselves in a tag. -/
def isTagChar (c : Char) : Bool := isAlnum c || "-_;/?:@&=+$,.~*'()[]".toList.contains c

/-- A byte of a tag as an escape. -/
def escapeByte (b : UInt8) : List Char := '%' :: Style.escapeDigits 2 b.toNat

/-- A tag with the mark before its name, which a name that begins with one does without. -/
def markedTag (tag : String) : List Char :=
  if (stripLead? "!" tag).isSome then tag.toList else '!' :: tag.toList

/-- The characters of a tag after its mark. -/
def writeTagName (cs : List Char) : List Char :=
  cs.flatMap fun c =>
    if isTagChar c then [c] else (String.singleton c).toUTF8.toList.flatMap escapeByte

/-- Writes a tag. One that is nothing but its mark stands between angle brackets. -/
def writeTag (tag : String) : List Char :=
  match markedTag tag with
  | [c] => '!' :: '<' :: writeTagName [c] ++ ['>']
  | _ :: name => '!' :: writeTagName name
  | [] => []

/-- The text of a number. -/
def writeNumber : Number → String
  | .integer n => toString n
  | .real r => r.toText

/-- Writes a value that is not a collection and has no tag. -/
def writeScalar (indent : Nat) : Value → List Char
  | .null => "null".toList
  | .bool b => (if b then "true" else "false").toList
  | .number n => (writeNumber n).toList
  | .string s => (Style.ofText s).write indent s
  | _ => []

/-- The text of which the length counts for a key. -/
def scalarText : Value → String
  | .null => "null"
  | .bool b => if b then "true" else "false"
  | .number n => writeNumber n
  | .string s => s
  | _ => ""

/-- Whether a value can stand before a colon: on one line and not longer than 128 bytes, a tag
before it counted. -/
def isSimpleKey (tagSize : Nat) : Value → Bool
  | .sequence items => items.isEmpty && tagSize ≤ 128
  | .mapping entries => entries.isEmpty && tagSize ≤ 128
  | .tagged t content => content.isSimpleKey (tagSize + (String.ofList (markedTag t)).utf8ByteSize)
  | v => !v.scalarText.toList.any isBreak && tagSize + v.scalarText.utf8ByteSize ≤ 128

/-! ## Blocks -/

/-- Where a value begins: after a key and its colon, or after a mark with nothing but indentation
before it. -/
inductive Place where
  | afterKey
  | afterMark
deriving DecidableEq, Repr

/-- Ends the line that the text has begun. -/
def endLine (cs : List Char) : List Char :=
  match cs.getLast? with
  | some c => if isBreak c then [] else ['\n']
  | none => ['\n']

/-- The texts, each on a line of its own. -/
def joinLines (indent : Nat) : List (List Char) → List Char
  | [] => []
  | [cs] => cs
  | cs :: rest => cs ++ endLine cs ++ Style.spaces indent ++ joinLines indent rest

/-- Begins a block of lines that is indented by `indent`. -/
def beginBlock (place : Place) (indent : Nat) (lines : List (List Char)) : List Char :=
  match place with
  | .afterMark => ' ' :: joinLines indent lines
  | .afterKey => '\n' :: Style.spaces indent ++ joinLines indent lines

/-- Where the key of an entry and its value begin. -/
def placeOf (key : Value) : Place := if isSimpleKey 0 key then .afterKey else .afterMark

/-- An entry of a mapping, from its written key and value. -/
def writeEntry (indent : Nat) (place : Place) (key value : List Char) : List Char :=
  match place with
  | .afterKey => key.drop 1 ++ ':' :: value
  | .afterMark => joinLines indent ['?' :: key, ':' :: value]

mutual

/-- Writes a value, and the blank or break before it, inside a collection that is indented by
`indent`: a mapping or, if `inMapping` does not hold, a sequence. -/
def writeAt (place : Place) (inMapping : Bool) (indent : Nat) : Value → List Char
  | .tagged t content => ' ' :: writeTag t ++ writeAt .afterKey inMapping indent content
  | .sequence items =>
    let inner := if inMapping && place = .afterKey then indent else indent + 2
    if items.isEmpty then [' ', '[', ']'] else beginBlock place inner (itemLines inner items)
  | .mapping entries =>
    if entries.isEmpty then [' ', '\x7b', '\x7d']
    else beginBlock place (indent + 2) (entryLines (indent + 2) entries)
  | v => ' ' :: writeScalar (indent + 2) v

/-- Writes the items of a sequence. -/
def itemLines (indent : Nat) : List Value → List (List Char)
  | [] => []
  | item :: rest => ('-' :: writeAt .afterMark false indent item) :: itemLines indent rest

/-- Writes the entries of a mapping. -/
def entryLines (indent : Nat) : List (Value × Value) → List (List Char)
  | [] => []
  | (k, v) :: rest =>
    writeEntry indent (placeOf k) (writeAt (placeOf k) true indent k)
      (writeAt (placeOf k) true indent v) :: entryLines indent rest

end

/-! ## Documents -/

/-- Whether a value is a mapping with one entry. -/
def isSingleton : Value → Bool
  | .mapping [_] => true
  | _ => false

/-- Whether a value has a tag. -/
def isTagged : Value → Bool
  | .tagged _ _ => true
  | _ => false

mutual

/-- Whether a value can be written. The one entry of a mapping may not have a key with a tag, nor
one that is a mapping with one entry itself, unless the mapping has a tag. -/
def isWritable : Value → Bool
  | .sequence items => areWritable items
  | .mapping entries => entriesAreWritable entries &&
    match entries with
    | [(k, _)] => !k.isSingleton && !k.isTagged
    | _ => true
  | .tagged _ (.mapping entries) => entriesAreWritable entries
  | .tagged _ content => content.isWritable
  | _ => true

/-- Whether all items can be written. -/
def areWritable : List Value → Bool
  | [] => true
  | v :: rest => v.isWritable && areWritable rest

/-- Whether all keys and values can be written. -/
def entriesAreWritable : List (Value × Value) → Bool
  | [] => true
  | (k, v) :: rest => k.isWritable && v.isWritable && entriesAreWritable rest

end

/-- Writes a document. -/
def write (v : Value) : String :=
  let cs := match v with
    | .mapping (entry :: entries) => joinLines 0 (entryLines 0 (entry :: entries))
    | .sequence (item :: items) => joinLines 0 (itemLines 0 (item :: items))
    | v => (writeAt .afterKey false 0 v).drop 1
  String.ofList (cs ++ endLine cs)

end Value

end RouteFleet.Yaml
