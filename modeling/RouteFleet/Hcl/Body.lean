import RouteFleet.Hcl.Reader

/-! # Reading HCL bodies

An attribute ends with its line. A block's body stands on lines of its own, or is at most one
attribute on the line of the block. No body sets an attribute twice.
-/

namespace RouteFleet.Hcl

open ReadM

/-- Reads the labels of a block, up to its opening brace. -/
def labels : Nat → ReadM (List String)
  | 0 => failure
  | fuel + 1 => do
    gap false
    match ← rest with
    | '\x7b' :: _ =>
      advance 1
      return []
    | '"' :: _ =>
      let label ← plainText
      return label :: (← labels fuel)
    | _ =>
      let label ← name
      return label :: (← labels fuel)

/-- Reads the mark that sets an attribute, if it comes next. -/
def setMark : ReadM Bool := do
  gap false
  takeIf ['=']

/-- Whether a part of a body sets the attribute `name`. -/
def Item.sets (name : String) : Item → Bool
  | .attribute other _ => name = other
  | .block _ _ _ => false

mutual

/-- Reads the parts of a body, up to the end of the text or, in a block, to its closing brace. -/
def body (inBlock : Bool) : Nat → ReadM Body
  | 0 => failure
  | fuel + 1 => do
    gap true
    match ← rest with
    | [] => if inBlock then failure else return []
    | '\x7d' :: _ =>
      if !inBlock then failure
      advance 1
      return []
    | _ =>
      let name ← name
      let item ← do
        if ← setMark then pure (.attribute name (← value))
        else
          let labels ← labels (fuel + 1)
          pure (.block name labels (← blockBody fuel))
      lineEnd
      let items ← body inBlock fuel
      match item with
      | .attribute name _ => if items.any (·.sets name) then failure
      | .block _ _ _ => pure ()
      return item :: items

/-- Reads the body of a block, after its opening brace. -/
def blockBody : Nat → ReadM Body
  | 0 => failure
  | fuel + 1 => do
    match ← attempt lineEnd with
    | some () => body true fuel
    | none =>
      gap false
      if ← takeIf ['\x7d'] then return []
      let name ← name
      if !(← setMark) then failure
      let e ← value
      expect ['\x7d']
      return [.attribute name e]

end

/-- Reads a text. -/
def read? (text : String) : Option Body :=
  ((body false (text.length + 2)).run { rest := text.toList }).map (·.1)

end RouteFleet.Hcl
