import RouteFleet.Json.Value

/-! # JSON tokens

The text of a document is a row of tokens with blanks between them. `scan` cuts a text into its
tokens; string and number literals come out as they are written.
-/

namespace RouteFleet.Json

open Text

/-- A mark, a word or a literal of a document's text. -/
inductive Token where
  | openBracket | closeBracket | openBrace | closeBrace | comma | colon
  | null
  | bool (value : Bool)
  | number (literal : String)
  | string (literal : String)
deriving DecidableEq, Repr

namespace Token

/-- The characters that may stand between two tokens. -/
def isSpace (c : Char) : Bool := c = ' ' || c = '\t' || c = '\n' || c = '\r'

/-- The literal up to the closing quote, and what follows the quote. -/
def scanString : List Char → Option (List Char × List Char)
  | [] => none
  | '"' :: rest => some ([], rest)
  | '\\' :: 'u' :: a :: b :: c :: d :: rest =>
    if [a, b, c, d].all isHexDigit then
      (scanString rest).map fun p => ('\\' :: 'u' :: a :: b :: c :: d :: p.1, p.2)
    else none
  | '\\' :: c :: rest =>
    if ['"', '\\', '/', 'b', 'f', 'n', 'r', 't'].contains c then
      (scanString rest).map fun p => ('\\' :: c :: p.1, p.2)
    else none
  | c :: rest =>
    if c.toNat < 0x20 || c = '\\' then none else (scanString rest).map fun p => (c :: p.1, p.2)

/-- One or more digits, and what follows them. -/
def scanDigits (cs : List Char) : Option (List Char × List Char) :=
  match cs.takeWhile isDigit with
  | [] => none
  | ds => some (ds, cs.dropWhile isDigit)

/-- The fraction of a number, if one begins here. -/
def scanFraction : List Char → Option (List Char × List Char)
  | '.' :: cs => (scanDigits cs).map fun p => ('.' :: p.1, p.2)
  | cs => some ([], cs)

/-- The exponent of a number, if one begins here. -/
def scanExponent : List Char → Option (List Char × List Char)
  | c :: cs =>
    if c = 'e' || c = 'E' then
      match cs with
      | s :: cs =>
        if s = '+' || s = '-' then (scanDigits cs).map fun p => (c :: s :: p.1, p.2)
        else (scanDigits (s :: cs)).map fun p => (c :: p.1, p.2)
      | [] => none
    else some ([], c :: cs)
  | [] => some ([], [])

/-- The whole part of a number: a single zero, or digits that do not begin with one. -/
def scanWhole : List Char → Option (List Char × List Char)
  | '0' :: cs => some (['0'], cs)
  | cs => scanDigits cs

/-- The number that begins here, and what follows it. -/
def scanNumber (cs : List Char) : Option (List Char × List Char) := do
  let (sign, cs) := match cs with
    | '-' :: cs => (['-'], cs)
    | cs => ([], cs)
  let (whole, cs) ← scanWhole cs
  let (fraction, cs) ← scanFraction cs
  let (exponent, cs) ← scanExponent cs
  return (sign ++ whole ++ fraction ++ exponent, cs)

/-- The token that begins with `c`, and what follows it. -/
def scanOne (c : Char) (rest : List Char) : Option (Token × List Char) :=
  match c with
  | '[' => some (.openBracket, rest)
  | ']' => some (.closeBracket, rest)
  | '\x7b' => some (.openBrace, rest)
  | '\x7d' => some (.closeBrace, rest)
  | ',' => some (.comma, rest)
  | ':' => some (.colon, rest)
  | 'n' => (dropLead? ['u', 'l', 'l'] rest).map (.null, ·)
  | 't' => (dropLead? ['r', 'u', 'e'] rest).map (.bool true, ·)
  | 'f' => (dropLead? ['a', 'l', 's', 'e'] rest).map (.bool false, ·)
  | '"' => (scanString rest).map fun p => (.string (String.ofList p.1), p.2)
  | c => (scanNumber (c :: rest)).map fun p => (.number (String.ofList p.1), p.2)

/-- The tokens of a text. Each round takes a character, so `fuel` need not exceed the length. -/
def scanFrom : Nat → List Char → Option (List Token)
  | _, [] => some []
  | 0, _ :: _ => none
  | fuel + 1, c :: rest =>
    if isSpace c then scanFrom fuel rest
    else (scanOne c rest).bind fun p => (scanFrom fuel p.2).map (p.1 :: ·)

/-- The tokens of a text, or `none` if it is not a row of tokens. -/
def scan (cs : List Char) : Option (List Token) := scanFrom cs.length cs

end Token

end RouteFleet.Json
