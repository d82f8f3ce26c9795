import RouteFleet.Yaml.Value

/-! # What an unquoted scalar means

An unquoted scalar is the null, a truth value, a number or a text. Numbers are looked for first
among the whole ones, in base ten, sixteen, eight or two, and then among those of double precision.
Digits that begin with a zero are a text, and so is a number too large for double precision.
-/

namespace RouteFleet.Yaml

open Text

/-- The meaning of an unquoted scalar. -/
inductive Meaning where
  | null
  | bool (value : Bool)
  | integer (value : Int)
  | real (value : Binary64)
  | text
deriving DecidableEq, Repr

namespace Meaning

/-- Whether `s` spells the null. -/
def isNull (s : String) : Bool := s == "null" || s == "Null" || s == "NULL" || s == "~"

/-- The truth value that `s` spells. -/
def bool? (s : String) : Option Bool :=
  if s == "true" || s == "True" || s == "TRUE" then some true
  else if s == "false" || s == "False" || s == "FALSE" then some false
  else none

/-- Whether `cs`, less a sign, is a zero with nothing but digits after it, one at least. -/
def isPaddedDigits (cs : List Char) : Bool :=
  let cs := match cs with
    | '-' :: rest => rest
    | '+' :: rest => rest
    | _ => cs
  match cs with
  | '0' :: d :: rest => (d :: rest).all isDigit
  | _ => false

/-- The whole number that digits spell, with a mark of their base before them. -/
def magnitude? : List Char → Option Nat
  | '0' :: 'x' :: ds => digits? 16 ds
  | '0' :: 'o' :: ds => digits? 8 ds
  | '0' :: 'b' :: ds => digits? 2 ds
  | ds => if isPaddedDigits ds then none else digits? 10 ds

/-- The whole number that `cs` spells, if it has at most 128 bits. -/
def integer? (cs : List Char) : Option Int :=
  match cs with
  | '-' :: ds =>
    match magnitude? ds with
    | some n => if n ≤ Nat.pow 2 127 then some (-(n : Int)) else none
    | none => none
  | '+' :: ds => natural? ds
  | ds => natural? ds
where
  /-- A whole number without a sign of its own. -/
  natural? (ds : List Char) : Option Int :=
    match magnitude? ds with
    | some n => if n < Nat.pow 2 128 then some n else none
    | none => none

/-- The number of double precision that `cs` spells. -/
def real? (cs : List Char) : Option Binary64 :=
  let s := String.ofList cs
  if s == ".inf" || s == ".Inf" || s == ".INF" || s == "+.inf" || s == "+.Inf" || s == "+.INF" then
    some (.infinite false)
  else if s == "-.inf" || s == "-.Inf" || s == "-.INF" then some (.infinite true)
  else if s == ".nan" || s == ".NaN" || s == ".NAN" then some .nan
  else
    match Binary64.ofLiteral? cs with
    | some (.finite negative m q) => some (.finite negative m q)
    | _ => none

/-- The meaning of the unquoted scalar `s`. -/
def ofPlain (s : String) : Meaning :=
  if s == "" || isNull s then .null
  else match bool? s with
  | some b => .bool b
  | none =>
    match integer? s.toList with
    | some n => .integer n
    | none =>
      if isPaddedDigits s.toList then .text
      else match real? s.toList with
      | some r => .real r
      | none => .text

/-- The value of a meaning, `s` being the scalar's text; a whole number outside 64 bits has none. -/
def toValue? (s : String) : Meaning → Option Value
  | .null => some .null
  | .bool b => some (.bool b)
  | .integer n =>
    if Int64.minValue.toInt ≤ n && n < (UInt64.size : Int) then some (.number (.integer n)) else none
  | .real r => some (.number (.real r))
  | .text => some (.string s)

end Meaning

end RouteFleet.Yaml
