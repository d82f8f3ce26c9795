import RouteFleet.Hcl.Word

/-! # Parts of templates

A text between quotes, or on several lines between two marks, may hold parts that would have to be
computed: values, conditions and loops. Such a part is kept as it is written; the text between them is
kept as what it means, and written anew where the template is part of an expression.
-/

namespace RouteFleet.Hcl

open Expression

/-- A part of a template. -/
inductive Part where
  | literal (text : List Char)
  /-- A part that would have to be computed, or the mark of a condition or loop. -/
  | code (source : List Char)
deriving DecidableEq, Repr

namespace Part

/-- What a part says as text. -/
def meaning : Part → List Char
  | .literal cs => markText cs
  | .code cs => cs

/-- A part as it is written between quotes. -/
def quoted : Part → List Char
  | .literal cs => escape cs
  | .code cs => cs

/-- Puts text before some parts. -/
def cons (cs : List Char) : List Part → List Part
  | .literal ds :: rest => .literal (cs ++ ds) :: rest
  | rest => .literal cs :: rest

/-- The text of parts of which none would have to be computed. -/
def text? : List Part → Option (List Char)
  | [] => some []
  | [.literal cs] => some cs
  | _ => none

end Part

/-- The template of some parts between quotes. -/
def ofQuoted (parts : List Part) : Expression :=
  match Part.text? parts with
  | some cs => .string (String.ofList cs)
  | none => .template (String.ofList (parts.flatMap Part.meaning))

/-! ## Texts of several lines -/

/-- The lines of a text without the breaks between them. -/
def textLines (cs : List Char) : List (List Char) :=
  let lines := Text.pieces '\n' cs
  let lines := if lines.getLast? = some [] then lines.dropLast else lines
  lines.map fun l => if l.getLast? = some '\r' then l.dropLast else l

/-- How far a line is indented. -/
def indentation (line : List Char) : Nat := (line.takeWhile Text.isBlank).length

/-- A text without what all its lines are indented by. Empty lines do not count. If that is nothing,
the text stays as it is. -/
def unindent (cs : List Char) : List Char :=
  let lines := textLines cs
  match ((lines.filter (!·.isEmpty)).map indentation).min? with
  | none | some 0 => cs
  | some margin =>
    let joined := lines.flatMap fun l => l.drop margin ++ ['\n']
    if cs.getLast? = some '\n' then joined else joined.dropLast

/-- The template of some parts on several lines. -/
def ofLines (flush : Bool) (mark : String) (parts : List Part) : Expression :=
  let source := parts.flatMap Part.meaning
  .heredoc flush mark (String.ofList (if flush then unindent source else source))

end RouteFleet.Hcl
