import RouteFleet.Text.Split

/-! # Reading HCL step by step

What is left to read is a `Reading`. With it goes what was read so far: where an expression is kept as
it is written, this is what is kept.

Between words there may be blanks and comments. A comment in stars and slashes may stand in a line, any
other ends with its line. Whether breaks count as blanks depends on the place.
-/

namespace RouteFleet.Hcl

/-- What is left of a text, and what was read of it. -/
structure Reading where
  rest : List Char
  /-- What was read, as it is kept, with the last character first. -/
  kept : List Char := []

/-- Reads a text; may fail. -/
abbrev ReadM := StateT Reading Option

namespace ReadM

/-! ## Single characters -/

/-- What is left. -/
def rest : ReadM (List Char) := do return (← get).rest

/-- Keeps some characters as if they had been read. -/
def keep (cs : List Char) : ReadM Unit := modify fun r => { r with kept := cs.reverse ++ r.kept }

/-- Goes on with `cs`, and keeps nothing of what stands before it. -/
def goTo (cs : List Char) : ReadM Unit := modify fun r => { r with rest := cs }

/-- Reads `n` characters. -/
def advance (n : Nat) : ReadM Unit :=
  modify fun r => { rest := r.rest.drop n, kept := (r.rest.take n).reverse ++ r.kept }

/-- Whether the characters `cs` come next; reads them if they do. -/
def takeIf (cs : List Char) : ReadM Bool := do
  if cs.isPrefixOf (← rest) then
    advance cs.length
    return true
  else return false

/-- Reads the characters `cs`, which must come next. -/
def expect (cs : List Char) : ReadM Unit := do
  if ← takeIf cs then return else failure

/-- Reads what `p` reads if it does not fail, else nothing. -/
def attempt {α : Type} (p : ReadM α) : ReadM (Option α) := fun r =>
  match p r with
  | some (a, s) => some (some a, s)
  | none => some (none, r)

/-- What `p` reads, with what is kept of it. -/
def withKept {α : Type} (p : ReadM α) : ReadM (α × List Char) := fun r =>
  match p { r with kept := [] } with
  | some (a, s) => some ((a, s.kept.reverse), { s with kept := s.kept ++ r.kept })
  | none => none

/-- What `p` reads, with nothing kept of it. -/
def withoutKept {α : Type} (p : ReadM α) : ReadM α := fun r =>
  match p r with
  | some (a, s) => some (a, { s with kept := r.kept })
  | none => none

/-! ## Blanks and comments -/

/-- How many characters there are up to the end of a line, if no return stands alone in it. -/
def lineLength : List Char → Option Nat
  | [] => some 0
  | '\n' :: _ => some 0
  | '\r' :: '\n' :: _ => some 0
  | '\r' :: _ => none
  | _ :: cs => (lineLength cs).map (· + 1)

/-- How many characters there are up to the end of a comment in stars and slashes. -/
def commentLength : List Char → Option Nat
  | '*' :: '/' :: _ => some 2
  | _ :: cs => (commentLength cs).map (· + 1)
  | [] => none

/-- The length of the comment that comes next. One that ends with its line counts only where `lines`
holds. -/
def commentLength? (lines : Bool) (cs : List Char) : Option Nat :=
  match cs with
  | '/' :: '*' :: cs => (commentLength cs).map (· + 2)
  | '/' :: '/' :: cs => if lines then (lineLength cs).map (· + 2) else none
  | '#' :: cs => if lines then (lineLength cs).map (· + 1) else none
  | _ => none

/-- Whether a character is a blank, or a break where `lines` holds. -/
def isGap (lines : Bool) (c : Char) : Bool :=
  c == ' ' || c == '\t' || (lines && (c == '\n' || c == '\r'))

/-- How many characters of blanks and comments come next, and of breaks where `lines` holds. -/
def gapLength (lines : Bool) : Nat → List Char → Nat
  | 0, _ => 0
  | fuel + 1, cs =>
    match cs with
    | [] => 0
    | c :: rest =>
      if isGap lines c then gapLength lines fuel rest + 1
      else
        match commentLength? lines cs with
        | some n => gapLength lines fuel (cs.drop n) + n
        | none => 0

/-- Reads blanks and comments, and breaks where `lines` holds. -/
def gap (lines : Bool) : ReadM Unit := do
  let cs ← rest
  advance (gapLength lines cs.length cs)

/-- Reads the break at the end of a line, on which nothing but a comment may be left; there is none at
the end of the text. -/
def lineEnd : ReadM Unit := do
  gap false
  let cs ← rest
  if let some n := commentLength? true cs then advance n
  match ← rest with
  | [] => return
  | '\n' :: _ => advance 1
  | '\r' :: '\n' :: _ => advance 2
  | _ => failure

/-- Reads what `p` reads between two gaps. -/
def between {α : Type} (lines : Bool) (p : ReadM α) : ReadM α := do
  gap lines
  let a ← p
  gap lines
  return a

end ReadM

end RouteFleet.Hcl
