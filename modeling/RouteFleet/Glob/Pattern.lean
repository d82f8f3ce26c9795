import RouteFleet.Text.Split

/-! # Patterns of names

A pattern speaks of paths part by part. In a part, `?` stands for any character, `*` for any text, and
brackets for one of some characters, or for none of them after `!`. A part `**` stands for any folders
on the way. A star next to two others, a `**` that is not a part of its own, and a bracket that is not
closed make no pattern.
-/

namespace RouteFleet.Glob

open Text

/-- What stands for one or more characters of a name. -/
inductive Token where
  | char (c : Char)
  | any
  | many
  | within (ranges : List (Char × Char))
  | outside (ranges : List (Char × Char))
deriving DecidableEq, Repr

/-- A part of a pattern. -/
inductive Part where
  | name (tokens : List Token)
  | folders
deriving DecidableEq, Repr

/-! ## Matching -/

/-- Whether `p` holds of some end of a text. -/
def someEnd (p : List Char → Bool) : List Char → Bool
  | [] => p []
  | c :: rest => p (c :: rest) || someEnd p rest

/-- Whether a character lies in one of some ranges. -/
def inRanges (c : Char) (ranges : List (Char × Char)) : Bool :=
  ranges.any fun r => r.1 ≤ c && c ≤ r.2

/-- Whether a token stands for the character `c`. -/
def Token.accepts (c : Char) : Token → Bool
  | .char d => c = d
  | .any => true
  | .many => true
  | .within ranges => inRanges c ranges
  | .outside ranges => !inRanges c ranges

/-- Whether tokens stand for a text. -/
def accepts : List Token → List Char → Bool
  | [], cs => cs.isEmpty
  | .many :: rest, cs => someEnd (accepts rest) cs
  | t :: rest, cs =>
    match cs with
    | c :: more => t.accepts c && accepts rest more
    | [] => false

/-- The text that tokens stand for, if there is only one. -/
def literal? : List Token → Option (List Char)
  | [] => some []
  | .char c :: rest => (literal? rest).map (c :: ·)
  | _ :: _ => none

/-! ## Reading -/

/-- The ranges that stand in brackets: pairs with a hyphen between them, and single characters. -/
def rangesOf : List Char → List (Char × Char)
  | a :: '-' :: b :: rest => (a, b) :: rangesOf rest
  | a :: rest => (a, a) :: rangesOf rest
  | [] => []

/-- What stands in brackets, and what follows them. The first character may be a closing bracket. -/
def bracket? : List Char → Option (List Char × List Char)
  | c :: rest => (cutFirst ']' rest).map fun p => (c :: p.1, p.2)
  | [] => none

/-- The tokens of a part. Each round takes at least one character. -/
def tokensOf? : Nat → List Char → Option (List Token)
  | 0, _ => none
  | _ + 1, [] => some []
  | fuel + 1, c :: rest =>
    match c, rest with
    | '?', rest => (tokensOf? fuel rest).map (.any :: ·)
    | '*', '*' :: _ => none
    | '*', rest => (tokensOf? fuel rest).map (.many :: ·)
    | '[', '!' :: rest => do
      let (inside, rest) ← bracket? rest
      return .outside (rangesOf inside) :: (← tokensOf? fuel rest)
    | '[', rest => do
      let (inside, rest) ← bracket? rest
      return .within (rangesOf inside) :: (← tokensOf? fuel rest)
    | c, rest => (tokensOf? fuel rest).map (.char c :: ·)

/-- Reads a part. -/
def Part.ofChars? (cs : List Char) : Option Part :=
  if cs = ['*', '*'] then some .folders
  else (tokensOf? (cs.length + 1) cs).map .name

/-- The pieces of a pattern, without the empty one that a slash at the end makes. -/
def piecesOf (cs : List Char) : List (List Char) :=
  let all := pieces '/' cs
  if 1 < all.length && all.getLast? = some [] then all.dropLast else all

/-- Reads the parts of a pattern that does not begin at the top. -/
def parts? (cs : List Char) : Option (List Part) := (piecesOf cs).mapM Part.ofChars?

/-! ## Writing -/

/-- A character that stands for itself, also if it would stand for more. -/
def escapeChar (c : Char) : List Char :=
  if c = '?' || c = '*' || c = '[' || c = ']' then ['[', c, ']'] else [c]

/-- The pattern of one text. -/
def escape (s : String) : String := String.ofList (s.toList.flatMap escapeChar)

end RouteFleet.Glob
