import RouteFleet.Text.Split

/-! # Classes of characters

A class of characters beyond ASCII is given by the ranges of their numbers. A table is lines of words;
each word is a row of numbers in base sixteen, with full stops between them. The row of a range is its
first and its last number, or its only one.
-/

namespace RouteFleet.Text

/-- The rows of a table. -/
def rows (table : List String) : List (List Nat) :=
  table.flatMap fun line =>
    (pieces ' ' line.toList).filterMap fun word => (pieces '.' word).mapM (digits? 16)

/-- A class of characters. -/
structure CharClass where
  ranges : List (Nat × Nat)
deriving DecidableEq, Repr

namespace CharClass

/-- The range of a row. -/
def rangeOfRow? : List Nat → Option (Nat × Nat)
  | [n] => some (n, n)
  | [first, last] => some (first, last)
  | _ => none

/-- The class that a table gives. -/
def ofLines (table : List String) : CharClass := ⟨(rows table).filterMap rangeOfRow?⟩

/-- Whether a character is in a class. -/
def contains (cls : CharClass) (c : Char) : Bool :=
  cls.ranges.any fun r => r.1 ≤ c.toNat && c.toNat ≤ r.2

end CharClass

end RouteFleet.Text
