import RouteFleet.Yaml.Cursor
import RouteFleet.Yaml.Token.Basic

/-! # Scanning directives, tags and anchors

A directive stands on a line of its own before a document. Tags and anchors stand before a node.
-/

namespace RouteFleet.Yaml

open Text

namespace Token

/-- A character of an anchor, or of a directive's name. -/
def isNameChar (c : Char) : Bool := isAlnum c || c == '_' || c == '-'

/-- A character of a tag. Between angle brackets, marks of flow collections are as well. -/
def isTagUriChar (verbatim : Bool) (c : Char) : Bool :=
  isNameChar c || ";/?:@&=+$.%!~*'()".toList.contains c ||
    (verbatim && (c == ',' || c == '[' || c == ']'))

/-- The bytes that escapes in a tag spell; every other character spells itself. -/
def tagBytes : List Char → Option (List UInt8)
  | [] => some []
  | '%' :: a :: b :: rest => do
    let n ← digits? 16 [a, b]
    return n.toUInt8 :: (← tagBytes rest)
  | c :: rest =>
    if c == '%' then none
    else do return (String.singleton c).toUTF8.toList ++ (← tagBytes rest)

/-- The text that a part of a tag spells. -/
def tagText? (cs : List Char) : Option String := do
  String.fromUTF8? ⟨(← tagBytes cs).toArray⟩

/-- Takes the characters of a tag. -/
def takeTagUri (verbatim : Bool) (cur : Cursor) : Option (String × Cursor) := do
  let (cs, next) := cur.takeWhile (isTagUriChar verbatim)
  return (← tagText? cs, next)

/-- Takes a handle: an exclamation mark, and a name with another one after it if there is one. -/
def takeHandle (cur : Cursor) : Option (String × Cursor) :=
  if cur.at? (· == '!') then
    let (cs, next) := (cur.skip 1).takeWhile isNameChar
    if next.at? (· == '!') then some (String.ofList ('!' :: cs ++ ['!']), next.skip 1)
    else some (String.ofList ('!' :: cs), next)
  else none

/-- Whether a handle ends with an exclamation mark of its own. -/
def isFullHandle (handle : String) : Bool := handle != "!" && endsWith "!" handle

/-- Takes a tag. -/
def takeTag (flow : Bool) (cur : Cursor) : Option (Token × Cursor) := do
  let (token, next) ←
    if cur.looksAt 1 '<' then do
      let (uri, next) ← takeTagUri true (cur.skip 2)
      if uri == "" || !next.at? (· == '>') then none
      some (Token.tag "" uri, next.skip 1)
    else do
      let (handle, next) ← takeHandle cur
      let (suffix, after) ← takeTagUri false next
      if isFullHandle handle then
        if suffix == "" then none else some (Token.tag handle suffix, after)
      else
        let suffix := String.ofList (handle.toList.drop 1) ++ suffix
        some (if suffix == "" then Token.tag "" "!" else Token.tag "!" suffix, after)
  if next.gapAt 0 || (flow && next.at? (· == ',')) then some (token, next) else none

/-- Takes the name of an anchor or alias, after its mark. -/
def takeName (cur : Cursor) : Option (String × Cursor) :=
  let (cs, next) := (cur.skip 1).takeWhile isNameChar
  if !cs.isEmpty && (next.gapAt 0 || next.at? fun c => "?:,]\x7d%@".toList.contains c ||
      c.toNat == 0x60) then
    some (String.ofList cs, next)
  else none

/-- Takes a number of a version, which has at most nine digits. -/
def takeVersionNumber (cur : Cursor) : Option (Nat × Cursor) := do
  let (cs, next) := cur.takeWhile isDigit
  if 9 < cs.length then none
  return (← digits? 10 cs, next)

/-- Takes a directive and the line it stands on. -/
def takeDirective (cur : Cursor) : Option (Token × Cursor) := do
  let (name, next) := (cur.skip 1).takeWhile isNameChar
  if name.isEmpty || !next.gapAt 0 then none
  let next := next.skipWhile isBlank
  let (token, next) ←
    if name == "YAML".toList then do
      let (major, next) ← takeVersionNumber next
      if !next.at? (· == '.') then none
      let (minor, next) ← takeVersionNumber (next.skip 1)
      some (Token.versionDirective major minor, next)
    else if name == "TAG".toList then do
      let (handle, next) ← takeHandle next
      if handle != "!" && !isFullHandle handle then none
      if !next.at? isBlank then none
      let (lead, next) ← takeTagUri true (next.skipWhile isBlank)
      if lead == "" || !next.gapAt 0 then none
      some (Token.tagDirective handle lead, next)
    else none
  let next := next.skipComment
  if next.lineEnds then some (token, next.skipBreak) else none

end Token

end RouteFleet.Yaml
