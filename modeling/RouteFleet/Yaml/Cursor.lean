import RouteFleet.Yaml.Style

/-! # A place in a document's text

A `Cursor` is what is left of a text, with the line and the column where it begins. Whatever is read
takes characters off a cursor. A return followed by a line feed ends one line, not two.
-/

namespace RouteFleet.Yaml

/-- What is left of a text, and where it begins. -/
structure Cursor where
  rest : List Char
  /-- How many bytes were taken. -/
  index : Nat
  line : Nat
  column : Nat
deriving Repr, Inhabited

namespace Cursor

/-- A text from its beginning. -/
def start (cs : List Char) : Cursor := ⟨cs, 0, 0, 0⟩

/-- Whether the next character is `c`. -/
def at? (p : Char → Bool) (cur : Cursor) : Bool :=
  match cur.rest with
  | c :: _ => p c
  | [] => false

/-- Whether the character after `n` others is `c`. -/
def looksAt (n : Nat) (c : Char) (cur : Cursor) : Bool := cur.rest[n]? == some c

/-- Whether nothing is left. -/
def atEnd (cur : Cursor) : Bool := cur.rest.isEmpty

/-- Whether the text ends after `n` characters, or a blank or a break stands there. -/
def gapAt (n : Nat) (cur : Cursor) : Bool :=
  match cur.rest[n]? with
  | some c => isBlank c || isBreak c
  | none => true

/-- Whether the line ends here. -/
def lineEnds (cur : Cursor) : Bool :=
  match cur.rest with
  | c :: _ => isBreak c
  | [] => true

/-- Whether a line that begins here would begin with the mark of a document's start or end. -/
def atDocumentMark (cur : Cursor) : Bool :=
  cur.column == 0 && cur.gapAt 3 &&
    (['-', '-', '-'].isPrefixOf cur.rest || ['.', '.', '.'].isPrefixOf cur.rest)

/-- How many bytes some characters take. -/
def byteCount (cs : List Char) : Nat := cs.foldl (fun n c => n + c.utf8Size) 0

/-- Takes `n` characters, none of which is a break. -/
def skip (n : Nat) (cur : Cursor) : Cursor :=
  { rest := cur.rest.drop n
    index := cur.index + byteCount (cur.rest.take n)
    line := cur.line
    column := cur.column + n }

/-- The characters in the class `p`, which holds no break, that stand next, and what follows. -/
def takeWhile (p : Char → Bool) (cur : Cursor) : List Char × Cursor :=
  let cs := cur.rest.takeWhile p
  (cs, cur.skip cs.length)

/-- Passes over the characters in the class `p`, which holds no break. -/
def skipWhile (p : Char → Bool) (cur : Cursor) : Cursor := (cur.takeWhile p).2

/-- Passes over the rest of the line. -/
def skipLine (cur : Cursor) : Cursor := cur.skipWhile fun c => !isBreak c

/-- Passes over blanks, and over a comment after them. -/
def skipComment (cur : Cursor) : Cursor :=
  let cur := cur.skipWhile isBlank
  if cur.at? (· == '#') then cur.skipLine else cur

/-- Takes the break that stands next, if one does, and says what it stands for: separators of lines
and paragraphs stand for themselves, any other break for a line feed. -/
def takeBreak (cur : Cursor) : List Char × Cursor :=
  match cur.rest with
  | '\r' :: '\n' :: rest => (['\n'], ⟨rest, cur.index + 2, cur.line + 1, 0⟩)
  | c :: rest =>
    if isBreak c then
      (if c.toNat == 0x2028 || c.toNat == 0x2029 then [c] else ['\n'],
        ⟨rest, cur.index + c.utf8Size, cur.line + 1, 0⟩)
    else ([], cur)
  | [] => ([], cur)

/-- Passes over the break that stands next. -/
def skipBreak (cur : Cursor) : Cursor := cur.takeBreak.2

end Cursor

end RouteFleet.Yaml
