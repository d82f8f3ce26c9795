import RouteFleet.Text.Composition
import RouteFleet.Text.Direction
import RouteFleet.Text.Joining
import RouteFleet.Url.Folding

/-! # Labels of domains

A domain consists of labels. A label may hold no character that means something in a URL and may not
begin with a mark. Characters that ask for letters to be joined or not may stand only where letters
can be. Where letters of a domain are written from right to left, each label must be written in one
direction, so that its end is seen to be its end.
-/

namespace RouteFleet.Label

open Text

/-! ## Characters -/

/-- Whether a character means something in a URL, or cannot be seen. -/
def isForbidden (c : Char) : Bool :=
  c.toNat ≤ 0x20 || c.toNat == 0x7f || "#/:<>?@[\\]^|%".toList.contains c

/-- Whether a character begins a label that is well formed. -/
def mayBegin (cs : List Char) : Bool :=
  match cs with
  | c :: _ => c.toNat < 0x80 || !isMark c
  | [] => true

/-- Whether all characters count as themselves and are written the one way that stands for all. -/
def isSettled (cs : List Char) : Bool :=
  cs.all (fun c => Folding.fold? c = some [c]) && compose cs = cs

/-! ## Joining -/

/-- Asks for letters not to be joined. -/
def nonJoiner : Char := '\u200c'

/-- Asks for letters to be joined. -/
def joiner : Char := '\u200d'

/-- Whether a virama stands last in what is before, of which the last character comes first. -/
def followsVirama (before : List Char) : Bool :=
  match before with
  | c :: _ => viramas.contains c
  | [] => false

/-- Whether the next character that joining does not pass over is of a kind. -/
def nextJoined (p : Char → Bool) (cs : List Char) : Bool :=
  match cs.dropWhile isPassedInJoining with
  | c :: _ => p c
  | [] => false

/-- Whether joiners stand only where they mean something, after the characters `before`, of which the
last one comes first. -/
def joinersFit (before : List Char) : List Char → Bool
  | [] => true
  | c :: rest =>
    let fits :=
      if c = joiner then followsVirama before
      else if c = nonJoiner then
        followsVirama before || (nextJoined joinsWithNext before && nextJoined joinsWithLast rest)
      else true
    fits && joinersFit (c :: before) rest

/-! ## Directions -/

/-- Whether a label holds characters that are written from right to left. -/
def hasRightToLeft (cs : List Char) : Bool :=
  cs.any fun c =>
    match Direction.ofChar c with
    | .rightToLeft | .arabicDigit => true
    | _ => false

/-- The directions of a label without the marks at its end. -/
def unmarkedDirections (cs : List Char) : List Direction :=
  ((cs.map Direction.ofChar).reverse.dropWhile fun d => decide (d = .mark)).reverse

/-- Whether a label is written in one direction, from its first character to its last. -/
def hasOneDirection (cs : List Char) : Bool :=
  let ds := unmarkedDirections cs
  match ds.head?, ds.getLast? with
  | some .leftToRight, some last =>
    ds.all (fun d => d != .rightToLeft && d != .arabicDigit) &&
      (last = .leftToRight || last = .digit)
  | some .rightToLeft, some last =>
    ds.all (· != .leftToRight) && !(ds.contains .digit && ds.contains .arabicDigit) &&
      (last = .rightToLeft || last = .digit || last = .arabicDigit)
  | _, _ => cs.isEmpty

/-! ## Labels -/

/-- The most characters of a label that is not of ASCII alone. -/
def maxLength : Nat := 1000

/-- Whether a label is well formed but for its direction. -/
def isWellFormed (cs : List Char) : Bool :=
  !cs.any isForbidden && mayBegin cs && joinersFit [] cs

end RouteFleet.Label
