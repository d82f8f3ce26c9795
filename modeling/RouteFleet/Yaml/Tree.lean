import RouteFleet.Dict
import RouteFleet.Yaml.Node
import RouteFleet.Yaml.Token.Scan

/-! # Trees of YAML tokens

A `Tree` is what the tokens of a document make up, before nodes that are written once and meant
several times have been put in their places: an alias is a leaf that bears the number of the anchor
it speaks of. Anchors are numbered as they come.
-/

namespace RouteFleet.Yaml

/-- A document in which aliases stand for nodes with anchors. -/
inductive Tree where
  | alias (anchor : Nat)
  | scalar (anchor : Option Nat) (tag : Option String) (plain : Bool) (text : String)
  | sequence (anchor : Option Nat) (tag : Option String) (items : List Tree)
  | mapping (anchor : Option Nat) (tag : Option String) (entries : List (Tree × Tree))
deriving Repr, Inhabited

/-- What is left to read, and what is known about it. -/
structure Reading where
  tokens : List Token
  /-- The number that each anchor's name stands for. -/
  anchors : Dict Nat := .empty
  /-- What each handle of a tag stands for. -/
  handles : List (String × String) := []

/-- Reads tokens; may fail. -/
abbrev ReadM := StateT Reading Option

namespace ReadM

/-- The next token. -/
def peek : ReadM Token := do return ((← get).tokens.head?).getD .streamEnd

/-- Passes over the next token. -/
def skip : ReadM Unit := modify fun r => { r with tokens := r.tokens.tail }

/-- Passes over the next token if it is `t`, and says whether it was. -/
def skipIf (t : Token) : ReadM Bool := do
  if (← peek) = t then skip; return true else return false

/-- Whether the next token is one of some. -/
def isNext (ts : List Token) : ReadM Bool := do return ts.contains (← peek)

/-- Passes over the comma before a part of a collection, which only the first part does without. -/
def comma (first : Bool) : ReadM Unit := do
  if first then return
  else if ← skipIf .flowEntry then return
  else failure

/-! ## Anchors, aliases and tags -/

/-- The anchor that an alias speaks of. -/
def resolve (name : String) : ReadM Nat := do (← get).anchors.get? name

/-- Numbers an anchor. A name that was there before is given a new number, but does not count for
the numbers after it. -/
def register (name : String) : ReadM Nat := do
  let r ← get
  set { r with anchors := r.anchors.insert name r.anchors.size }
  return r.anchors.size

/-- The full form of a tag. -/
def fullTag (handle suffix : String) : ReadM String := do
  if handle = "" then return suffix
  else
    let lead ← (← get).handles.lookup handle
    return lead ++ suffix

/-- The name of the anchor, if one comes next. -/
def anchor? : ReadM (Option String) := do
  match ← peek with
  | .anchor name => skip; return some name
  | _ => return none

/-- The tag, if one comes next. -/
def tag? : ReadM (Option String) := do
  match ← peek with
  | .tag handle suffix => skip; return some (← fullTag handle suffix)
  | _ => return none

/-- The anchor and the tag before a node, in either order. -/
def properties : ReadM (Option Nat × Option String) := do
  let before ← anchor?
  let tag ← tag?
  let after ← if before.isNone then anchor? else pure none
  match before.or after with
  | some name => return (some (← register name), tag)
  | none => return (none, tag)

end ReadM

namespace Tree

open ReadM

/-- Where nothing is written. -/
def blank : Tree := .scalar none none true ""

mutual

/-- Reads a node. Blocks may begin only where `block` holds. Where `flush` holds, a sequence may
begin that is not indented further than what is around it. -/
def node (block flush : Bool) : Nat → ReadM Tree
  | 0 => failure
  | fuel + 1 => do
    match ← peek with
    | .alias name =>
      skip
      return .alias (← resolve name)
    | _ =>
      let (anchor, tag) ← properties
      match ← peek with
      | .blockEntry =>
        if flush then return .sequence anchor tag (← flushItems fuel)
        else if anchor.isSome || tag.isSome then return .scalar anchor tag true ""
        else failure
      | .scalar plain text =>
        skip
        return .scalar anchor tag plain text
      | .flowSequenceStart =>
        skip
        return .sequence anchor tag (← flowItems true fuel)
      | .flowMappingStart =>
        skip
        return .mapping anchor tag (← flowEntries true fuel)
      | .blockSequenceStart =>
        if block then
          skip
          return .sequence anchor tag (← blockItems fuel)
        else if anchor.isSome || tag.isSome then return .scalar anchor tag true ""
        else failure
      | .blockMappingStart =>
        if block then
          skip
          return .mapping anchor tag (← blockEntries fuel)
        else if anchor.isSome || tag.isSome then return .scalar anchor tag true ""
        else failure
      | _ =>
        if anchor.isSome || tag.isSome then return .scalar anchor tag true ""
        else failure

/-- Reads a node, or nothing if one of the tokens `ends` comes next. -/
def nodeOr (ends : List Token) (block flush : Bool) : Nat → ReadM Tree
  | 0 => failure
  | fuel + 1 => do
    if ← isNext ends then return blank else node block flush fuel

/-- Reads the items of a sequence that is a block of its own. -/
def blockItems : Nat → ReadM (List Tree)
  | 0 => failure
  | fuel + 1 => do
    if ← skipIf .blockEntry then
      let item ← nodeOr [.blockEntry, .blockEnd] true false fuel
      return item :: (← blockItems fuel)
    else if ← skipIf .blockEnd then return []
    else failure

/-- Reads the items of a sequence that is not indented. -/
def flushItems : Nat → ReadM (List Tree)
  | 0 => failure
  | fuel + 1 => do
    if ← skipIf .blockEntry then
      let item ← nodeOr [.blockEntry, .key, .value, .blockEnd] true false fuel
      return item :: (← flushItems fuel)
    else return []

/-- Reads the entries of a mapping that is a block. -/
def blockEntries : Nat → ReadM (List (Tree × Tree))
  | 0 => failure
  | fuel + 1 => do
    if ← skipIf .key then
      let ends : List Token := [.key, .value, .blockEnd]
      let k ← nodeOr ends true true fuel
      let v ← if ← skipIf .value then nodeOr ends true true fuel else pure blank
      return (k, v) :: (← blockEntries fuel)
    else if ← skipIf .blockEnd then return []
    else failure

/-- Reads the items of a sequence in brackets. Before all but the first there is a comma. A key makes
an item a mapping of one entry. -/
def flowItems (first : Bool) : Nat → ReadM (List Tree)
  | 0 => failure
  | fuel + 1 => do
    if ← skipIf .flowSequenceEnd then return []
    else
      comma first
      if ← skipIf .key then
        let entry ← flowPair fuel
        return .mapping none none [entry] :: (← flowItems false fuel)
      else if ← skipIf .flowSequenceEnd then return []
      else
        let item ← node false false fuel
        return item :: (← flowItems false fuel)

/-- Reads an entry that is an item of a sequence in brackets. If nothing is written for the key, the
token after the key's mark is passed over. -/
def flowPair : Nat → ReadM (Tree × Tree)
  | 0 => failure
  | fuel + 1 => do
    let keyIsBlank ← isNext [.value, .flowEntry, .flowSequenceEnd]
    let k ← if keyIsBlank then do skip; pure blank else node false false fuel
    let v ← if ← skipIf .value then nodeOr [.flowEntry, .flowSequenceEnd] false false fuel
      else pure blank
    return (k, v)

/-- Reads the entries of a mapping in braces. Before all but the first there is a comma. -/
def flowEntries (first : Bool) : Nat → ReadM (List (Tree × Tree))
  | 0 => failure
  | fuel + 1 => do
    if ← skipIf .flowMappingEnd then return []
    else
      comma first
      if ← skipIf .key then
        let k ← nodeOr [.value, .flowEntry, .flowMappingEnd] false false fuel
        let v ← if ← skipIf .value then nodeOr [.flowEntry, .flowMappingEnd] false false fuel
          else pure blank
        return (k, v) :: (← flowEntries false fuel)
      else if ← skipIf .flowMappingEnd then return []
      else
        let k ← node false false fuel
        return (k, blank) :: (← flowEntries false fuel)

end

/-! ## Documents -/

/-- The handles that need no directive. -/
def standardHandles : List (String × String) := [("!", "!"), ("!!", "tag:yaml.org,2002:")]

/-- Reads the directives before a document: a version once, which must be 1.1 or 1.2, and each handle
once. -/
def directives : Nat → Bool → List (String × String) → ReadM (List (String × String))
  | 0, _, _ => failure
  | fuel + 1, versioned, handles => do
    match ← peek with
    | .versionDirective major minor =>
      if versioned || major != 1 || (minor != 1 && minor != 2) then failure
      skip
      directives fuel true handles
    | .tagDirective handle lead =>
      if (handles.lookup handle).isSome then failure
      skip
      directives fuel versioned (handles ++ [(handle, lead)])
    | _ => return handles

/-- Whether a token shows that a document begins with its directives or its mark. -/
def opensDocument : Token → Bool
  | .versionDirective _ _ | .tagDirective _ _ | .documentStart => true
  | _ => false

/-- Whether a token shows that there is nothing, or nothing more, in a document. -/
def closesDocument (t : Token) : Bool := opensDocument t || t = .documentEnd || t = .streamEnd

/-- Passes over the marks of a document's end. -/
def skipEnds (tokens : List Token) : List Token :=
  tokens.dropWhile fun t => decide (t = .documentEnd)

/-- Reads the only document, after which nothing may come. -/
def document (fuel : Nat) : ReadM Tree := do
  let first ← peek
  let tree ←
    if first = .streamEnd then pure blank
    else if opensDocument first then
      let handles ← directives fuel false []
      modify fun r => { r with handles := handles ++ standardHandles }
      if !(← skipIf .documentStart) then failure
      if closesDocument (← peek) then pure blank else node true false fuel
    else
      modify fun r => { r with handles := standardHandles }
      node true false fuel
  modify fun r => { r with tokens := skipEnds r.tokens }
  if (← peek) = .streamEnd then return tree else failure

/-- The tree that some tokens make up. A tree takes at most four rounds for each token. -/
def ofTokens? (tokens : List Token) : Option Tree :=
  ((document (4 * tokens.length + 4)).run { tokens := tokens }).map (·.1)

end Tree

end RouteFleet.Yaml
