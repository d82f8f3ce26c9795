import RouteFleet.Url.Label
import RouteFleet.Url.Spelling

/-! # Domain names

A domain is compared as what its characters count as, each written the one way that stands for all.
Between full stops stand its labels. A label that begins with `xn--` spells another one, which must
hold characters beyond ASCII and could not be written in any other way; what is said of labels is said
of that one.
-/

namespace RouteFleet.Domain

open Text

/-- Whether a text is of ASCII alone. -/
def isAscii (cs : List Char) : Bool := cs.all fun c => c.toNat < 0x80

/-- What the characters of a domain count as. -/
def fold? (cs : List Char) : Option (List Char) :=
  (cs.mapM Folding.fold?).map fun css => compose css.flatten

/-- The label that a label spells: itself, unless it begins with `xn--`. -/
def spelled? (cs : List Char) : Option (List Char) :=
  match dropLead? "xn--".toList cs with
  | some rest =>
    if !isAscii rest then none
    else
      match Spelling.label? rest with
      | some label => if !isAscii label && Label.isSettled label then some label else none
      | none => none
  | none => if Label.maxLength < cs.length && !isAscii cs then none else some cs

/-- The form of a domain in which it is compared, if it is one. -/
def normal? (s : String) : Option String := do
  let cs ← fold? s.toList
  let labels ← (pieces '.' cs).mapM spelled?
  if !labels.all Label.isWellFormed then none
  if labels.any Label.hasRightToLeft && !labels.all Label.hasOneDirection then none
  return String.ofList cs

end RouteFleet.Domain
