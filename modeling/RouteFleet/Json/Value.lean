import RouteFleet.Text.Split

/-! # JSON documents

A `Json` document keeps its numbers and strings as they are written: a number by its literal, a
string by what stands between its quotes. Whether a string literal spells a text at all (an escape
may name half a surrogate pair) and what number a literal means are asked where the value is used,
so that a document is also accepted when it has such things in places nobody looks at.
-/

namespace RouteFleet

/-- A JSON document, its numbers and strings as written. -/
inductive Json where
  | null
  | bool (value : Bool)
  | number (literal : String)
  | string (literal : String)
  | array (items : List Json)
  | object (fields : List (String × Json))
deriving Repr, Inhabited

namespace Json

open Text

/-! ## String literals -/

/-- How a character is written between quotes: quotes, backslashes and control characters are
escaped, everything else stands for itself. -/
def escapeChar (c : Char) : List Char :=
  if c = '"' then ['\\', '"']
  else if c = '\\' then ['\\', '\\']
  else if c.toNat < 0x20 then
    if c = '\x08' then ['\\', 'b']
    else if c = '\t' then ['\\', 't']
    else if c = '\n' then ['\\', 'n']
    else if c = '\x0c' then ['\\', 'f']
    else if c = '\r' then ['\\', 'r']
    else '\\' :: 'u' :: hexDigits 4 c.toNat
  else [c]

/-- The literal of a text, without its quotes. -/
def escape (s : String) : String := String.ofList (s.toList.flatMap escapeChar)

/-- The number that four hexadecimal digits spell, and what follows them. -/
def fourDigits : List Char → Option (Nat × List Char)
  | a :: b :: c :: d :: rest => (digits? 16 [a, b, c, d]).map (·, rest)
  | _ => none

/-- The characters that a literal spells, or `none` if it has an escape that names no character.
Each round takes at least one character, so `fuel` need not exceed the literal's length. -/
def unescapeChars : Nat → List Char → Option (List Char)
  | _, [] => some []
  | 0, _ :: _ => none
  | fuel + 1, '\\' :: rest =>
    match rest with
    | 'u' :: rest => do
      let (high, rest) ← fourDigits rest
      if 0xd800 ≤ high && high ≤ 0xdbff then
        match rest with
        | '\\' :: 'u' :: rest =>
          let (low, rest) ← fourDigits rest
          if 0xdc00 ≤ low && low ≤ 0xdfff then
            let more ← unescapeChars fuel rest
            return Char.ofNat (0x10000 + (high - 0xd800) * 0x400 + (low - 0xdc00)) :: more
          else none
        | _ => none
      else if 0xdc00 ≤ high && high ≤ 0xdfff then none
      else return Char.ofNat high :: (← unescapeChars fuel rest)
    | 'b' :: rest => (unescapeChars fuel rest).map ('\x08' :: ·)
    | 'f' :: rest => (unescapeChars fuel rest).map ('\x0c' :: ·)
    | 'n' :: rest => (unescapeChars fuel rest).map ('\n' :: ·)
    | 'r' :: rest => (unescapeChars fuel rest).map ('\r' :: ·)
    | 't' :: rest => (unescapeChars fuel rest).map ('\t' :: ·)
    | c :: rest =>
      if c = '"' || c = '\\' || c = '/' then (unescapeChars fuel rest).map (c :: ·) else none
    | [] => none
  | fuel + 1, c :: rest => (unescapeChars fuel rest).map (c :: ·)

/-- The text that a literal spells. -/
def unescape? (literal : String) : Option String :=
  (unescapeChars literal.toList.length literal.toList).map String.ofList

/-! ## Building documents -/

/-- The string document of a text. -/
def ofText (s : String) : Json := .string (escape s)

/-- The number document of an integer. -/
def ofInt (n : Int) : Json := .number (toString n)

/-- An object with the given keys, in the given order. -/
def ofFields (fields : List (String × Json)) : Json :=
  .object (fields.map fun f => (escape f.1, f.2))

/-! ## Reading values out of documents -/

/-- The text of a string document. -/
def text? : Json → Option String
  | .string literal => unescape? literal
  | _ => none

/-- The truth value of a document. -/
def bool? : Json → Option Bool
  | .bool b => some b
  | _ => none

/-- The integer that a literal without fraction and exponent spells. `-0` is not an integer: it
is the negative zero of the real numbers. -/
def integer? : Json → Option Int
  | .number literal =>
    match literal.toList with
    | '-' :: cs =>
      match digits? 10 cs with
      | some 0 => none
      | some n => some (-(n : Int))
      | none => none
    | cs => (digits? 10 cs).map Int.ofNat
  | _ => none

/-- The items of an array. -/
def items? : Json → Option (List Json)
  | .array items => some items
  | _ => none

/-- The fields of an object, their keys spelt out. -/
def fields? : Json → Option (List (String × Json))
  | .object fields => fields.mapM fun f => (unescape? f.1).map (·, f.2)
  | _ => none

end Json

end RouteFleet
