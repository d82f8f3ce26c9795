import RouteFleet.Text.Split

/-! # Spelled labels

A label of a domain with characters beyond ASCII can be spelled with ASCII alone: `xn--`, the
characters of ASCII in their order, a hyphen, and letters and digits that say which other characters
stand between them and where. The others come in the order of their numbers; what is written for each
is how many places further on it stands, counted over all characters that could come first.
-/

namespace RouteFleet.Spelling

open Text

/-! ## Numbers -/

/-- The value of a digit: letters, and then digits. -/
def digit? (c : Char) : Option Nat :=
  if 'a' ≤ c && c ≤ 'z' then some (c.toNat - 'a'.toNat)
  else if isDigit c then some (c.toNat - '0'.toNat + 26)
  else none

/-- Below which value the digit with the number `k` ends a number. -/
def threshold (k bias : Nat) : Nat :=
  if k ≤ bias then 1 else if bias + 26 ≤ k then 26 else k - bias

/-- A number, and what follows it. -/
def takeNumber (bias : Nat) : List Char → (k weight sum : Nat) → Option (Nat × List Char)
  | [], _, _, _ => none
  | c :: rest, k, weight, sum => do
    let d ← digit? c
    let t := threshold k bias
    if d < t then return (sum + d * weight, rest)
    else takeNumber bias rest (k + 36) (weight * (36 - t)) (sum + d * weight)

/-- Shrinks a distance until the digits of the next one can be weighed. -/
def shrink : Nat → Nat → Nat → Nat
  | 0, d, k => k + 36 * d / (d + 38)
  | fuel + 1, d, k => if 455 < d then shrink fuel (d / 35) (k + 36) else k + 36 * d / (d + 38)

/-- How digits are weighed after the distance `d`, of which there are `count` characters so far. -/
def adapt (d count : Nat) (first : Bool) : Nat :=
  let d := if first then d / 700 else d / 2
  shrink (d + d / count) (d + d / count) 0

/-! ## Texts -/

/-- The character with a number, if there is one. -/
def char? (n : Nat) : Option Char :=
  if n < 0xd800 || (0xe000 ≤ n && n < 0x110000) then some (Char.ofNat n) else none

/-- Puts the characters that `cs` spells between those of `text`. The next one is not before the
character with the number `n`, nor then before the place `i`. Each round takes at least one digit. -/
def insertFrom : Nat → List Char → (n i bias : Nat) → (text : List Char) → Option (List Char)
  | _, [], _, _, _, text => some text
  | 0, _ :: _, _, _, _, _ => none
  | fuel + 1, cs, n, i, bias, text => do
    let count := text.length + 1
    let (next, rest) ← takeNumber bias cs 36 1 i
    let c ← char? (n + next / count)
    insertFrom fuel rest (n + next / count) (next % count + 1) (adapt (next - i) count (i == 0))
      (text.insertIdx (next % count) c)

/-- How many characters of a spelled label are read. -/
def maxLength : Nat := 2000

/-- The label that the characters after `xn--` spell. A hyphen that nothing stands before is none of
its characters, and not the end of them either. -/
def label? (cs : List Char) : Option (List Char) :=
  if maxLength < cs.length then none
  else
    match cutLast '-' cs with
    | some ([], _) => none
    | some (plain, digits) => insertFrom digits.length digits 128 0 72 plain
    | none => insertFrom cs.length cs 128 0 72 []

end RouteFleet.Spelling
