import RouteFleet.Yaml.Token.Property
import RouteFleet.Yaml.Token.Scalar

/-! # Scanning documents

`Token.scan` cuts a text into tokens. Outside brackets and braces the indentation of lines begins
and ends blocks. A key that has no mark of its own shows only at the colon after it: where one may
begin, its place is remembered, and the mark is put there once the colon is met. Such a key stands
on one line and is at most 1024 bytes long.
-/

namespace RouteFleet.Yaml

/-- A place where a key may have begun. -/
structure KeySpot where
  /-- How many tokens stood before it. -/
  token : Nat
  /-- Whether nothing but a key can stand there. -/
  required : Bool
  index : Nat
  line : Nat
  column : Nat

/-- How far a text has been scanned. -/
structure Scan where
  cursor : Cursor
  tokens : Array Token := #[]
  /-- The indentation of the innermost block, `-1` outside all blocks. -/
  indent : Int := -1
  /-- The indentations of the blocks around it. -/
  outer : List Int := []
  /-- Where a key may have begun, for each bracket or brace that is open and for the outside. -/
  spots : List (Option KeySpot) := [none]
  /-- Whether a key may begin here. -/
  keyAllowed : Bool := true

namespace Scan

/-- Whether a bracket or brace is open. -/
def inFlow (s : Scan) : Bool := 1 < s.spots.length

/-- Puts a token at the end. -/
def emit (t : Token) (s : Scan) : Scan := { s with tokens := s.tokens.push t }

/-- Puts a token at the end and takes the `n` characters it consists of. -/
def emitMark (t : Token) (n : Nat) (s : Scan) : Scan :=
  { s with tokens := s.tokens.push t, cursor := s.cursor.skip n }

/-- Says whether a key may begin here. -/
def allowKey (allowed : Bool) (s : Scan) : Scan := { s with keyAllowed := allowed }

/-! ## Indentation -/

/-- Begins a block at `column` if that is further in than the innermost block. The token that says
so stands at the end or, if the block began earlier, at `place`. -/
def roll (column : Nat) (place : Option Nat) (t : Token) (s : Scan) : Scan :=
  if !s.inFlow && s.indent < column then
    { s with
      outer := s.indent :: s.outer
      indent := column
      tokens := match place with
        | none => s.tokens.push t
        | some i => s.tokens.insertIdxIfInBounds i t }
  else s

/-- Ends the blocks that are indented by more than `column`. -/
def endBlocks (column : Int) : List Int → Int → Array Token → Array Token × Int × List Int
  | [], indent, tokens => (tokens, indent, [])
  | i :: outer, indent, tokens =>
    if column < indent then endBlocks column outer i (tokens.push .blockEnd)
    else (tokens, indent, i :: outer)

/-- Ends the blocks that are indented by more than `column`, unless a bracket or brace is open. -/
def unroll (column : Int) (s : Scan) : Scan :=
  if s.inFlow then s
  else
    let (tokens, indent, outer) := endBlocks column s.outer s.indent s.tokens
    { s with tokens := tokens, indent := indent, outer := outer }

/-! ## Keys without a mark -/

/-- Whether a key that began at the spot may still end here. -/
def fits (cur : Cursor) (spot : KeySpot) : Bool :=
  spot.line == cur.line && cur.index ≤ spot.index + 1024

/-- Gives up the spots whose keys would have had to end by now. A key that nothing else could stand
for must not be given up. -/
def expire (cur : Cursor) : List (Option KeySpot) → Option (List (Option KeySpot))
  | [] => some []
  | none :: rest => (expire cur rest).map (none :: ·)
  | some spot :: rest =>
    if fits cur spot then (expire cur rest).map (some spot :: ·)
    else if spot.required then none
    else (expire cur rest).map (none :: ·)

/-- Gives up the innermost spot. -/
def dropSpot (s : Scan) : Option Scan :=
  match s.spots with
  | some spot :: rest => if spot.required then none else some { s with spots := none :: rest }
  | _ => some s

/-- Remembers that a key may begin here. -/
def saveSpot (s : Scan) : Option Scan :=
  if s.keyAllowed then do
    let s ← s.dropSpot
    let spot : KeySpot :=
      { token := s.tokens.size
        required := !s.inFlow && s.indent == s.cursor.column
        index := s.cursor.index
        line := s.cursor.line
        column := s.cursor.column }
    return { s with spots := some spot :: s.spots.drop 1 }
  else some s

/-! ## From one token to the next -/

/-- Passes over blanks, breaks and comments. Tabs count as blanks only where no key may begin. -/
def skipGap : Nat → Scan → Scan
  | 0, s => s
  | fuel + 1, s =>
    let cur := if s.cursor.column == 0 && s.cursor.at? (·.toNat == 0xfeff) then s.cursor.skip 1
      else s.cursor
    let cur := cur.skipWhile fun c => c == ' ' || (c == '\t' && (s.inFlow || !s.keyAllowed))
    let cur := if cur.at? (· == '#') then cur.skipLine else cur
    if cur.at? isBreak then
      skipGap fuel { s with cursor := cur.skipBreak, keyAllowed := s.keyAllowed || !s.inFlow }
    else { s with cursor := cur }

/-- Opens a bracket or brace. -/
def openFlow (t : Token) (s : Scan) : Option Scan := do
  let s ← s.saveSpot
  return ({ s with spots := none :: s.spots }.allowKey true).emitMark t 1

/-- Closes a bracket or brace. -/
def closeFlow (t : Token) (s : Scan) : Option Scan := do
  let s ← s.dropSpot
  let spots := if s.inFlow then s.spots.drop 1 else s.spots
  return ({ s with spots := spots }.allowKey false).emitMark t 1

/-- A comma between entries. -/
def flowEntry (s : Scan) : Option Scan := do
  let s ← s.dropSpot
  return (s.allowKey true).emitMark .flowEntry 1

/-- The mark of a sequence's item. -/
def blockEntry (s : Scan) : Option Scan := do
  if !s.inFlow && !s.keyAllowed then none
  let s := s.roll s.cursor.column none .blockSequenceStart
  let s ← s.dropSpot
  return (s.allowKey true).emitMark .blockEntry 1

/-- The mark of a key. -/
def keyMark (s : Scan) : Option Scan := do
  if !s.inFlow && !s.keyAllowed then none
  let s := s.roll s.cursor.column none .blockMappingStart
  let s ← s.dropSpot
  return (s.allowKey !s.inFlow).emitMark .key 1

/-- The colon before a value. If a key may have begun earlier, it did. -/
def valueMark (s : Scan) : Option Scan :=
  match s.spots with
  | some spot :: rest =>
    let s := { s with
      tokens := s.tokens.insertIdxIfInBounds spot.token .key
      spots := none :: rest }
    let s := s.roll spot.column (some spot.token) .blockMappingStart
    some ((s.allowKey false).emitMark .value 1)
  | _ => do
    if !s.inFlow && !s.keyAllowed then none
    let s := s.roll s.cursor.column none .blockMappingStart
    return (s.allowKey !s.inFlow).emitMark .value 1

/-- The mark of a document's start or end. -/
def documentMark (t : Token) (s : Scan) : Option Scan := do
  let s ← (s.unroll (-1)).dropSpot
  return (s.allowKey false).emitMark t 3

/-- A directive. -/
def directive (s : Scan) : Option Scan := do
  let s ← (s.unroll (-1)).dropSpot
  let (t, cur) ← Token.takeDirective s.cursor
  return { (s.allowKey false).emit t with cursor := cur }

/-- A token before or at which a key may begin. -/
def word (take : Cursor → Option (Token × Cursor)) (s : Scan) : Option Scan := do
  let s ← s.saveSpot
  let (t, cur) ← take s.cursor
  return { (s.allowKey false).emit t with cursor := cur }

/-- An unquoted scalar. If it ends after a break, a key may begin there. -/
def plainWord (s : Scan) : Option Scan := do
  let s ← s.saveSpot
  let (text, broken, cur) ← Scalar.plain s.inFlow (s.indent + 1) s.cursor
  return { (s.allowKey broken).emit (.scalar true text) with cursor := cur }

/-- A block of text. -/
def blockWord (s : Scan) : Option Scan := do
  let s ← s.dropSpot
  let (text, cur) ← Scalar.block s.indent s.cursor
  return { (s.allowKey true).emit (.scalar false text) with cursor := cur }

/-- Whether an unquoted scalar may begin with `c` here. -/
def beginsPlain (s : Scan) (c : Char) : Bool :=
  !(isBlank c || isBreak c || "-?:,[]\x7b\x7d#&*!|>'\"%@".toList.contains c || c.toNat == 0x60) ||
  (c == '-' && !s.cursor.rest[1]?.any isBlank) ||
  (!s.inFlow && (c == '?' || c == ':') && !s.cursor.gapAt 1)

/-- Takes the token that begins with `c` at the cursor. -/
def next (c : Char) (s : Scan) : Option Scan :=
  let cur := s.cursor
  if cur.column == 0 && c == '%' then s.directive
  else if cur.atDocumentMark then
    s.documentMark (if c == '-' then .documentStart else .documentEnd)
  else if c == '[' then s.openFlow .flowSequenceStart
  else if c == '\x7b' then s.openFlow .flowMappingStart
  else if c == ']' then s.closeFlow .flowSequenceEnd
  else if c == '\x7d' then s.closeFlow .flowMappingEnd
  else if c == ',' then s.flowEntry
  else if c == '-' && cur.gapAt 1 then s.blockEntry
  else if c == '?' && (s.inFlow || cur.gapAt 1) then s.keyMark
  else if c == ':' && (s.inFlow || cur.gapAt 1) then s.valueMark
  else if c == '*' then s.word fun cur => (Token.takeName cur).map fun p => (.alias p.1, p.2)
  else if c == '&' then s.word fun cur => (Token.takeName cur).map fun p => (.anchor p.1, p.2)
  else if c == '!' then s.word (Token.takeTag s.inFlow)
  else if (c == '|' || c == '>') && !s.inFlow then s.blockWord
  else if c == '\x27' || c == '"' then
    s.word fun cur => (Scalar.quoted cur).map fun p => (.scalar false p.1, p.2)
  else if s.beginsPlain c then s.plainWord
  else none

/-- Ends the text. -/
def finish (s : Scan) : Option Scan := do
  let s ← (s.unroll (-1)).dropSpot
  return s.emit .streamEnd

/-- Scans to the end. Each round takes at least one character. -/
def run : Nat → Scan → Option Scan
  | 0, _ => none
  | fuel + 1, s => do
    let s := skipGap (s.cursor.rest.length + 1) s
    let spots ← expire s.cursor s.spots
    let s := { s with spots := spots }.unroll s.cursor.column
    match s.cursor.rest with
    | [] => s.finish
    | c :: _ => run fuel (← s.next c)

end Scan

/-- Characters that may stand in a document's text. -/
def isTextChar (c : Char) : Bool :=
  isPrintable c || c == '\t' || c == '\r' || c.toNat == 0x85 || c.toNat == 0xfeff

/-- The tokens of a text, or `none` if it cannot be cut into tokens. -/
def Token.scan (cs : List Char) : Option (List Token) :=
  if cs.all isTextChar then
    (Scan.run (cs.length + 1) { cursor := Cursor.start cs }).map fun s => s.tokens.toList
  else none

end RouteFleet.Yaml
