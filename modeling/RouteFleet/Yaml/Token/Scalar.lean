import RouteFleet.Yaml.Cursor

/-! # Scanning scalars

A scalar that goes over several lines is folded: a single break between two words counts as a space,
and of several breaks the first does not count. In literal blocks breaks stand for themselves.
Each function returns the text of the scalar and the cursor after it, or `none` where the text
breaks off or has something in it that cannot be there.
-/

namespace RouteFleet.Yaml.Scalar

open Text

/-- Blanks and breaks between two words. -/
structure Gap where
  /-- The blanks, as long as there was no break. -/
  blanks : List Char := []
  /-- Whether there was a break. -/
  broken : Bool := false
  /-- The first break. -/
  first : List Char := []
  /-- The breaks after the first. -/
  more : List Char := []

/-- What a gap counts for inside a folded scalar. -/
def Gap.folded (g : Gap) : List Char :=
  if g.broken then
    if g.first == ['\n'] then (if g.more.isEmpty then [' '] else g.more) else g.first ++ g.more
  else g.blanks

/-- Takes blanks and breaks. At the beginning of a line, a tab before the column `indent` is refused
there. -/
def takeGap (indent : Int) : Nat → Gap → Cursor → Option (Gap × Cursor)
  | 0, g, cur => some (g, cur)
  | fuel + 1, g, cur =>
    match cur.rest with
    | c :: _ =>
      if isBlank c then
        if g.broken then
          if c == '\t' && (cur.column : Int) < indent then none
          else takeGap indent fuel g (cur.skip 1)
        else takeGap indent fuel { g with blanks := g.blanks ++ [c] } (cur.skip 1)
      else if isBreak c then
        let (b, next) := cur.takeBreak
        if g.broken then takeGap indent fuel { g with more := g.more ++ b } next
        else takeGap indent fuel { g with blanks := [], broken := true, first := b } next
      else some (g, cur)
    | [] => some (g, cur)

/-! ## Quoted scalars -/

/-- The character that stands after a backslash for another one. -/
def simpleEscape? (c : Char) : Option Char :=
  match c with
  | '0' => some (Char.ofNat 0)
  | 'a' => some (Char.ofNat 7)
  | 'b' => some (Char.ofNat 8)
  | 't' => some '\t'
  | '\t' => some '\t'
  | 'n' => some '\n'
  | 'v' => some (Char.ofNat 11)
  | 'f' => some (Char.ofNat 12)
  | 'r' => some '\r'
  | 'e' => some (Char.ofNat 27)
  | ' ' => some ' '
  | '"' => some '"'
  | '/' => some '/'
  | '\\' => some '\\'
  | 'N' => some (Char.ofNat 0x85)
  | '_' => some (Char.ofNat 0xa0)
  | 'L' => some (Char.ofNat 0x2028)
  | 'P' => some (Char.ofNat 0x2029)
  | _ => none

/-- How many digits follow a letter that announces a character's number. -/
def escapeWidth? (c : Char) : Option Nat :=
  match c with
  | 'x' => some 2
  | 'u' => some 4
  | 'U' => some 8
  | _ => none

/-- The character with a number, if there is one. -/
def charOfNumber? (n : Nat) : Option Char :=
  if (0xd800 ≤ n && n ≤ 0xdfff) || 0x10ffff < n then none else some (Char.ofNat n)

/-- The character that the escape after a backslash stands for, and how many characters it takes
after the backslash. -/
def takeEscape (cs : List Char) : Option (Char × Nat) :=
  match cs with
  | [] => none
  | c :: rest =>
    match simpleEscape? c with
    | some d => some (d, 1)
    | none => do
      let width ← escapeWidth? c
      if rest.length < width then none
      let n ← digits? 16 (rest.take width)
      return (← charOfNumber? n, width + 1)

/-- Takes the inside of quotes; `acc` holds what was read, last character first. -/
def takeQuoted (single : Bool) : Nat → List Char → Cursor → Option (List Char × Cursor)
  | 0, _, _ => none
  | fuel + 1, acc, cur =>
    if cur.atDocumentMark then none
    else match cur.rest with
    | [] => none
    | c :: rest =>
      if isBlank c || isBreak c then do
        let (g, next) ← takeGap (-1) cur.rest.length {} cur
        takeQuoted single fuel (g.folded.reverse ++ acc) next
      else if single then
        if c == '\x27' then
          if rest.head? == some '\x27' then takeQuoted single fuel (c :: acc) (cur.skip 2)
          else some (acc.reverse, cur.skip 1)
        else takeQuoted single fuel (c :: acc) (cur.skip 1)
      else if c == '"' then some (acc.reverse, cur.skip 1)
      else if c == '\\' then
        if rest.head?.any isBreak then do
          let (g, next) ← takeGap (-1) cur.rest.length { broken := true } (cur.skip 1).skipBreak
          takeQuoted single fuel (g.folded.reverse ++ acc) next
        else do
          let (d, n) ← takeEscape rest
          takeQuoted single fuel (d :: acc) (cur.skip (n + 1))
      else takeQuoted single fuel (c :: acc) (cur.skip 1)

/-- Takes a quoted scalar. -/
def quoted (cur : Cursor) : Option (String × Cursor) :=
  (takeQuoted (cur.at? (· == '\x27')) (cur.rest.length + 1) [] (cur.skip 1)).map fun p =>
    (String.ofList p.1, p.2)

/-! ## Unquoted scalars -/

/-- A character that ends an unquoted scalar inside brackets or braces. -/
def isFlowMark (c : Char) : Bool :=
  c == ',' || c == '[' || c == ']' || c == '\x7b' || c == '\x7d'

/-- The next word of an unquoted scalar, and what follows; a colon before a gap ends it. Inside
brackets or braces a colon before one of their marks is refused. -/
def takeWord (flow : Bool) : List Char → Option (List Char × List Char)
  | [] => some ([], [])
  | c :: rest =>
    if isBlank c || isBreak c then some ([], c :: rest)
    else
      let afterColon :=
        match rest with
        | [] => true
        | d :: _ => isBlank d || isBreak d
      if c == ':' && flow && rest.head?.any (fun d => isFlowMark d || d == '?') then none
      else if (c == ':' && afterColon) || (flow && isFlowMark c) then some ([], c :: rest)
      else (takeWord flow rest).map fun p => (c :: p.1, p.2)

/-- Takes an unquoted scalar word by word. `gap` is what stands before the next word; returned with
the text is whether the scalar ended after a break. -/
def takePlain (flow : Bool) (indent : Int) :
    Nat → List Char → Gap → Cursor → Option (List Char × Bool × Cursor)
  | 0, _, _, _ => none
  | fuel + 1, acc, gap, cur =>
    if cur.atDocumentMark || cur.at? (· == '#') then some (acc.reverse, gap.broken, cur)
    else do
      let (word, _) ← takeWord flow cur.rest
      if word.isEmpty then some (acc.reverse, gap.broken, cur)
      else
        let acc := word.reverse ++ gap.folded.reverse ++ acc
        let cur := cur.skip word.length
        if cur.at? (fun c => isBlank c || isBreak c) then
          let (g, next) ← takeGap indent cur.rest.length {} cur
          if !flow && (next.column : Int) < indent then some (acc.reverse, g.broken, next)
          else takePlain flow indent fuel acc g next
        else some (acc.reverse, false, cur)

/-- Takes an unquoted scalar whose lines after the first must be indented by `indent`, and says
whether it ended after a break. -/
def plain (flow : Bool) (indent : Int) (cur : Cursor) : Option (String × Bool × Cursor) :=
  (takePlain flow indent (cur.rest.length + 1) [] {} cur).map fun p =>
    (String.ofList p.1, p.2.1, p.2.2)

/-! ## Blocks -/

/-- What becomes of the breaks at the end of a block. -/
inductive Chomp where
  | strip
  | clip
  | keep
deriving DecidableEq

/-- The sign for what becomes of the breaks at the end. -/
def takeChomp (cur : Cursor) : Option Chomp × Cursor :=
  match cur.rest with
  | '+' :: _ => (some .keep, cur.skip 1)
  | '-' :: _ => (some .strip, cur.skip 1)
  | _ => (none, cur)

/-- The digit that gives a block's indentation; it must not be zero. -/
def takeIncrement (cur : Cursor) : Option (Nat × Cursor) :=
  match cur.rest with
  | c :: _ =>
    if isDigit c then (if c == '0' then none else some (c.toNat - '0'.toNat, cur.skip 1))
    else some (0, cur)
  | [] => some (0, cur)

/-- What stands after the mark of a block: a sign and a digit, in either order. -/
def takeHeader (cur : Cursor) : Option (Chomp × Nat × Cursor) :=
  match takeChomp cur with
  | (some chomp, cur) => do
    let (increment, cur) ← takeIncrement cur
    return (chomp, increment, cur)
  | (none, cur) => do
    let (increment, cur) ← takeIncrement cur
    if increment = 0 then return (.clip, 0, cur)
    let (chomp, cur) := takeChomp cur
    return (chomp.getD .clip, increment, cur)

/-- Takes empty lines, and the indentation of the line after them. `indent` is zero as long as the
block's indentation is not known; returned with the breaks is the greatest column met. A tab may not
stand in the indentation. -/
def takeEmptyLines (indent : Nat) :
    Nat → List Char → Nat → Cursor → Option (List Char × Nat × Cursor)
  | 0, breaks, widest, cur => some (breaks, widest, cur)
  | fuel + 1, breaks, widest, cur =>
    let room := if indent = 0 then cur.rest.length else indent - cur.column
    let cur := cur.skip ((cur.rest.take room).takeWhile (· == ' ')).length
    let widest := max widest cur.column
    if (indent = 0 || cur.column < indent) && cur.at? (· == '\t') then none
    else if cur.at? isBreak then
      let (b, next) := cur.takeBreak
      takeEmptyLines indent fuel (breaks ++ b) widest next
    else some (breaks, widest, cur)

/-- The indentation of a block that gives none: that of its first line, but more than `outer`. -/
def detectIndent (outer : Int) (widest : Nat) : Nat := max (max widest (outer + 1).toNat) 1

/-- What stands between the lines of a block so far read and the next one. -/
structure LineGap where
  /-- The break that ended the last line. -/
  first : List Char := []
  /-- The breaks of empty lines after it. -/
  more : List Char := []
  /-- Whether the last line began with a blank. -/
  blank : Bool := false

/-- What the gap before a line counts for. In a folded block, a break between two lines that do not
begin with blanks is folded. -/
def LineGap.text (literal : Bool) (g : LineGap) (nextBlank : Bool) : List Char :=
  if !literal && g.first == ['\n'] && !g.blank && !nextBlank then
    (if g.more.isEmpty then [' '] else g.more)
  else g.first ++ g.more

/-- Takes the lines of a block. -/
def takeLines (literal : Bool) (indent : Nat) :
    Nat → List Char → LineGap → Cursor → Option (List Char × LineGap × Cursor)
  | 0, _, _, _ => none
  | fuel + 1, acc, gap, cur =>
    if cur.column == indent && !cur.atEnd then do
      let blank := cur.at? isBlank
      let (line, cur) := cur.takeWhile fun c => !isBreak c
      let acc := line.reverse ++ (gap.text literal blank).reverse ++ acc
      let (first, cur) := cur.takeBreak
      let (more, _, cur) ← takeEmptyLines indent (cur.rest.length + 1) [] 0 cur
      takeLines literal indent fuel acc ⟨first, more, blank⟩ cur
    else some (acc.reverse, gap, cur)

/-- The breaks at the end of a block that are kept. -/
def LineGap.tail (g : LineGap) : Chomp → List Char
  | .strip => []
  | .clip => g.first
  | .keep => g.first ++ g.more

/-- Takes a block inside a collection that is indented by `outer`. -/
def block (outer : Int) (cur : Cursor) : Option (String × Cursor) := do
  let literal := cur.at? (· == '|')
  let (chomp, increment, cur) ← takeHeader (cur.skip 1)
  let cur := cur.skipComment
  if !cur.lineEnds then none
  let cur := cur.skipBreak
  let given : Nat := if increment = 0 then 0
    else if 0 ≤ outer then outer.toNat + increment else increment
  let (breaks, widest, cur) ← takeEmptyLines given (cur.rest.length + 1) [] 0 cur
  let indent := if given = 0 then detectIndent outer widest else given
  let (text, gap, cur) ←
    takeLines literal indent (cur.rest.length + 1) [] { more := breaks } cur
  return (String.ofList (text ++ gap.tail chomp), cur)

end RouteFleet.Yaml.Scalar
