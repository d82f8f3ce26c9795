import RouteFleet.Hcl.Expression
import RouteFleet.Hcl.Reading
import RouteFleet.Text.Identifier

/-! # Words of HCL

Names, numbers, and the escapes that stand for characters between quotes.
-/

namespace RouteFleet.Hcl

open Text ReadM

/-! ## Names -/

/-- A character that a name may begin with. -/
def beginsName (c : Char) : Bool :=
  if c.toNat < 0x80 then isLetter c || c == '_' else beginsIdentifier c

/-- A character of a name. -/
def isNameChar (c : Char) : Bool :=
  if c.toNat < 0x80 then isAlnum c || c == '_' || c == '-' else continuesIdentifier c

/-- The length of the name that comes next; zero if none does. -/
def nameLength (cs : List Char) : Nat :=
  match cs with
  | c :: rest => if beginsName c then (rest.takeWhile isNameChar).length + 1 else 0
  | [] => 0

/-- Reads a name. -/
def name : ReadM String := do
  let cs ← rest
  match nameLength cs with
  | 0 => failure
  | n =>
    advance n
    return String.ofList (cs.take n)

/-- Reads a name, which must be `word`. -/
def word (word : String) : ReadM Unit := do
  if (← name) = word then return else failure

/-! ## Numbers -/

/-- The characters of an exponent that stand next; none if there is no digit in it. -/
def exponent (cs : List Char) : List Char :=
  match cs with
  | e :: rest =>
    if e == 'e' || e == 'E' then
      let (sign, digits) := match rest with
        | '+' :: rest => (['+'], rest.takeWhile isDigit)
        | '-' :: rest => (['-'], rest.takeWhile isDigit)
        | rest => ([], rest.takeWhile isDigit)
      if digits.isEmpty then [] else e :: sign ++ digits
    else []
  | [] => []

/-- The characters of a fraction that stand next; none if there is no digit after the point. -/
def fraction (cs : List Char) : List Char :=
  match cs with
  | '.' :: rest =>
    let digits := rest.takeWhile isDigit
    if digits.isEmpty then [] else '.' :: digits
  | _ => []

/-- The characters of a number without a sign that stand next. -/
def numeral (cs : List Char) : List Char :=
  let whole := cs.takeWhile isDigit
  let part := fraction (cs.drop whole.length)
  let power := exponent (cs.drop (whole.length + part.length))
  whole ++ part ++ power

/-- The whole number that a number of double precision is, if it is one. -/
def whole? : Binary64 → Option Nat
  | .finite false m q =>
    if 0 ≤ q then some (m * Nat.pow 2 q.toNat)
    else if m % Nat.pow 2 (-q).toNat = 0 then some (m / Nat.pow 2 (-q).toNat)
    else none
  | _ => none

/-- A positive number of double precision, as a whole number of 64 digits in base two if it is one. -/
def ofBinary : Binary64 → Option Expression
  | .finite negative m q =>
    match whole? (.finite negative m q) with
    | some n => if n < UInt64.size then some (.integer n) else some (.real (.finite negative m q))
    | none => some (.real (.finite negative m q))
  | _ => none

/-- What a numeral stands for. A whole number has at most 64 digits in base two. -/
def ofNumeral? (cs : List Char) : Option Expression :=
  if cs.all isDigit then
    (digits? 10 cs).bind fun n => if n < UInt64.size then some (.integer n) else none
  else (Binary64.ofLiteral? cs).bind ofBinary

/-- A number with the opposite sign. A whole number below those of 64 digits in base two with a sign
becomes one of double precision. -/
def negate? : Expression → Option Expression
  | .integer n =>
    if Int64.minValue.toInt ≤ -n then some (.integer (-n))
    else (Binary64.ofLiteral? ('-' :: (toString n).toList)).map .real
  | .real (.finite negative m q) => some (.real (.finite (!negative) m q))
  | _ => none

/-- Reads a number without a sign. -/
def number : ReadM Expression := do
  let literal := numeral (← rest)
  let e ← ofNumeral? literal
  advance literal.length
  return e

/-! ## Escapes -/

/-- The character of a given number of hexadecimal digits. -/
def charOfCode? (digits : Nat) (cs : List Char) : Option (Char × List Char) := do
  let ds := cs.take digits
  if ds.length < digits then none
  let n ← digits? 16 ds
  if n < 0xd800 || (0xe000 ≤ n && n < 0x110000) then return (Char.ofNat n, cs.drop digits)
  else none

/-- The character that an escape stands for, after its backslash, and what follows it. -/
def takeEscape (cs : List Char) : Option (Char × List Char) :=
  match cs with
  | 'n' :: rest => some ('\n', rest)
  | 'r' :: rest => some ('\r', rest)
  | 't' :: rest => some ('\t', rest)
  | 'b' :: rest => some ('\x08', rest)
  | 'f' :: rest => some ('\x0c', rest)
  | '\\' :: rest => some ('\\', rest)
  | '/' :: rest => some ('/', rest)
  | '"' :: rest => some ('"', rest)
  | 'u' :: rest => charOfCode? 4 rest
  | 'U' :: rest => charOfCode? 8 rest
  | _ => none

/-! ## Operators -/

/-- The operator that comes next, of those that take two operands. Two slashes are none: they begin a
comment. -/
def operator? (cs : List Char) : Option (List Char) :=
  match cs with
  | '=' :: '=' :: _ => some ['=', '=']
  | '!' :: '=' :: _ => some ['!', '=']
  | '<' :: '=' :: _ => some ['<', '=']
  | '>' :: '=' :: _ => some ['>', '=']
  | '&' :: '&' :: _ => some ['&', '&']
  | '|' :: '|' :: _ => some ['|', '|']
  | '/' :: '/' :: _ => none
  | c :: _ => if "<>+-*/%".toList.contains c then some [c] else none
  | [] => none

end RouteFleet.Hcl
