import RouteFleet.Yaml.Scalar

/-! # How texts are written as YAML scalars

A text is written without quotes where that reads back as the same text. Where something in it has a
meaning of its own it is put between single quotes; a text of several lines is written as a literal
block; and characters that cannot stand for themselves are escaped between double quotes.
-/

namespace RouteFleet.Yaml

open Text

/-! ## Characters -/

/-- A character that ends a line. -/
def isBreak (c : Char) : Bool :=
  c == '\n' || c == '\r' || c.toNat == 0x85 || c.toNat == 0x2028 || c.toNat == 0x2029

/-- A character that separates words. -/
def isBlank (c : Char) : Bool := c == ' ' || c == '\t'

/-- A character after which a word may begin and before which one may end. -/
def isGap (c : Char) : Bool := isBlank c || isBreak c || c.toNat == 0

/-- A character that may stand for itself in a written document. -/
def isPrintable (c : Char) : Bool :=
  let n := c.toNat
  n == 0x0a || (0x20 ≤ n && n ≤ 0x7e) || (0xa0 ≤ n && n ≤ 0xd7ff) ||
  (0xe000 ≤ n && n ≤ 0xfffd && n != 0xfeff) || 0x10000 ≤ n

/-- The ways to write a text. -/
inductive Style where
  | plain
  | singleQuoted
  | doubleQuoted
  | literal
deriving DecidableEq, Repr

namespace Style

/-! ## What stands in a text -/

/-- Whether two neighbouring characters are in the classes `p` and `q`. -/
def adjacent (p q : Char → Bool) : List Char → Bool
  | a :: b :: rest => (p a && q b) || adjacent p q (b :: rest)
  | _ => false

/-- Whether the text begins or ends with a space or a break. -/
def isRagged (cs : List Char) : Bool :=
  let edge (c : Option Char) : Bool :=
    match c with
    | some c => c == ' ' || isBreak c
    | none => false
  edge cs.head? || edge cs.getLast?

/-- Characters with which an unquoted text does not begin. -/
def isIndicator (c : Char) : Bool := ",[]\x7b\x7d#&*!|>'\"%@".toList.contains c || c.toNat == 0x60

/-- Whether a colon ends a word, or a hash begins one, after the first character. -/
def hasInnerIndicator (cs : List Char) : Bool :=
  adjacent (· == ':') isGap cs || adjacent isGap (· == '#') cs || cs.getLast? == some ':'

/-- Whether the text has something in it that means something else without quotes. -/
def hasIndicator (cs : List Char) : Bool :=
  ['-', '-', '-'].isPrefixOf cs || ['.', '.', '.'].isPrefixOf cs || hasInnerIndicator cs ||
  match cs with
  | [] => false
  | c :: rest =>
    isIndicator c || ((c == '?' || c == ':' || c == '-') &&
      match rest with
      | [] => true
      | d :: _ => isGap d)

/-- Whether some character cannot stand for itself, or a space stands before a break. -/
def needsEscapes (cs : List Char) : Bool :=
  cs.any (!isPrintable ·) || adjacent (· == ' ') isBreak cs

/-- Whether the text may stand between single quotes. -/
def singleQuotedAllowed (cs : List Char) : Bool :=
  !needsEscapes cs && !adjacent isBreak (· == ' ') cs

/-- Whether the text may be a literal block. -/
def literalAllowed (cs : List Char) : Bool :=
  !needsEscapes cs && cs.getLast? != some ' '

/-- Whether the text may stand without quotes, whatever that means then. -/
def plainAllowed (cs : List Char) : Bool :=
  !needsEscapes cs && !cs.any isBreak && !isRagged cs && !hasIndicator cs

/-- Whether the text means something else without quotes, or nearly so. -/
def isAmbiguous (s : String) : Bool :=
  Meaning.ofPlain s != .text || Meaning.isPaddedDigits s.toList

/-- The way to write a text. -/
def ofText (s : String) : Style :=
  let cs := s.toList
  if cs.contains '\n' then
    if literalAllowed cs then .literal else .doubleQuoted
  else if plainAllowed cs && !isAmbiguous s then .plain
  else if singleQuotedAllowed cs then .singleQuoted
  else .doubleQuoted

/-! ## Writing -/

/-- Spaces in a row. -/
def spaces (n : Nat) : List Char := List.replicate n ' '

/-- The upper-case digits of an escape. -/
def escapeDigits (width n : Nat) : List Char := (hexDigits width n).map Char.toUpper

/-- How a character is written between double quotes. -/
def escapeChar (c : Char) : List Char :=
  if isPrintable c && !isBreak c && c != '"' && c != '\\' then [c]
  else '\\' :: match c.toNat with
    | 0x00 => ['0']
    | 0x07 => ['a']
    | 0x08 => ['b']
    | 0x09 => ['t']
    | 0x0a => ['n']
    | 0x0b => ['v']
    | 0x0c => ['f']
    | 0x0d => ['r']
    | 0x1b => ['e']
    | 0x22 => ['"']
    | 0x5c => ['\\']
    | 0x85 => ['N']
    | 0x2028 => ['L']
    | 0x2029 => ['P']
    | n =>
      if n ≤ 0xff then 'x' :: escapeDigits 2 n
      else if n ≤ 0xffff then 'u' :: escapeDigits 4 n
      else 'U' :: escapeDigits 8 n

/-- The inside of single quotes. `fresh` holds at the beginning of a line after the first, which is
indented; the line of the closing quote is as well. -/
def singleQuotedBody (indent : Nat) (fresh : Bool) : List Char → List Char
  | [] => if fresh then spaces indent else []
  | c :: rest =>
    if isBreak c then c :: singleQuotedBody indent true rest
    else (if fresh then spaces indent else []) ++ (if c = '\x27' then [c, c] else [c]) ++
      singleQuotedBody indent false rest

/-- The lines of a literal block, indented where they are not empty. -/
def literalBody (indent : Nat) (fresh : Bool) : List Char → List Char
  | [] => []
  | c :: rest =>
    if isBreak c then c :: literalBody indent true rest
    else (if fresh then spaces indent else []) ++ c :: literalBody indent false rest

/-- What follows the mark of a literal block: a hint at its indentation, if the text does not show
it, and whether breaks at its end are dropped or all of them kept. -/
def literalHints (cs : List Char) : List Char :=
  (match cs with
    | c :: _ => if c == ' ' || isBreak c then ['2'] else []
    | [] => []) ++
  match cs.reverse with
  | [] => ['-']
  | [c] => if isBreak c then ['+'] else ['-']
  | c :: d :: _ => if isBreak c then (if isBreak d then ['+'] else []) else ['-']

/-- Writes a text in a style; lines after the first are indented by `indent`. -/
def write (indent : Nat) (s : String) : Style → List Char
  | plain => s.toList
  | singleQuoted => '\x27' :: singleQuotedBody indent false s.toList ++ ['\x27']
  | doubleQuoted => '"' :: s.toList.flatMap escapeChar ++ ['"']
  | literal => '|' :: literalHints s.toList ++ '\n' :: literalBody indent true s.toList

end Style

end RouteFleet.Yaml
