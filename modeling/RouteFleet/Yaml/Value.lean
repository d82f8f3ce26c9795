import RouteFleet.Decimal.Binary64

/-! # YAML values

A `Value` is the content of a document of which nothing but the form is known. Mappings keep their
entries in the order in which they were written; any value may be a key.

Two values that differ only in the sign of a zero, or in the order of a mapping's entries, are
*alike* and may not both be keys of one mapping.
-/

namespace RouteFleet.Yaml

/-- A number: whole, or of double precision. -/
inductive Number where
  | integer (value : Int)
  | real (value : Binary64)
deriving DecidableEq, Repr, Inhabited

/-- The content of a document. -/
inductive Value where
  | null
  | bool (value : Bool)
  | number (value : Number)
  | string (text : String)
  | sequence (items : List Value)
  | mapping (entries : List (Value × Value))
  | tagged (tag : String) (content : Value)
deriving Repr, Inhabited

/-! ## Deciding equality -/

mutual

/-- Decides whether two values are equal. -/
def Value.decEq : (a b : Value) → Decidable (a = b)
  | .null, b => by
    cases b <;> first | exact .isTrue rfl | exact .isFalse (by simp)
  | .bool x, b => by
    cases b
    case bool y => exact decidable_of_iff (x = y) (by simp)
    all_goals exact .isFalse (by simp)
  | .number x, b => by
    cases b
    case number y => exact decidable_of_iff (x = y) (by simp)
    all_goals exact .isFalse (by simp)
  | .string x, b => by
    cases b
    case string y => exact decidable_of_iff (x = y) (by simp)
    all_goals exact .isFalse (by simp)
  | .sequence x, b => by
    cases b
    case sequence y =>
      have := Value.decEqItems x y
      exact decidable_of_iff (x = y) (by simp)
    all_goals exact .isFalse (by simp)
  | .mapping x, b => by
    cases b
    case mapping y =>
      have := Value.decEqEntries x y
      exact decidable_of_iff (x = y) (by simp)
    all_goals exact .isFalse (by simp)
  | .tagged t x, b => by
    cases b
    case tagged s y =>
      have := Value.decEq x y
      exact decidable_of_iff (t = s ∧ x = y) (by simp)
    all_goals exact .isFalse (by simp)

/-- Decides whether two lists of values are equal. -/
def Value.decEqItems : (a b : List Value) → Decidable (a = b)
  | [], [] => .isTrue rfl
  | [], _ :: _ => .isFalse (by simp)
  | _ :: _, [] => .isFalse (by simp)
  | x :: xs, y :: ys =>
    have := Value.decEq x y
    have := Value.decEqItems xs ys
    decidable_of_iff (x = y ∧ xs = ys) (by simp)

/-- Decides whether two lists of entries are equal. -/
def Value.decEqEntries : (a b : List (Value × Value)) → Decidable (a = b)
  | [], [] => .isTrue rfl
  | [], _ :: _ => .isFalse (by simp)
  | _ :: _, [] => .isFalse (by simp)
  | (k, x) :: xs, (l, y) :: ys =>
    have := Value.decEq k l
    have := Value.decEq x y
    have := Value.decEqEntries xs ys
    decidable_of_iff ((k = l ∧ x = y) ∧ xs = ys) (by simp)

end

instance : DecidableEq Value := Value.decEq

/-! ## Likeness -/

/-- Whether two numbers are alike: equal, or both zeros of double precision. -/
def Number.like : Number → Number → Bool
  | .real (.finite _ 0 _), .real (.finite _ 0 _) => true
  | a, b => a = b

mutual

/-- Whether two values are alike. -/
def Value.like : Value → Value → Bool
  | .null, .null => true
  | .bool x, .bool y => x = y
  | .number x, .number y => x.like y
  | .string x, .string y => x = y
  | .sequence xs, .sequence ys => Value.likeItems xs ys
  | .mapping xs, .mapping ys => xs.length = ys.length && Value.likeEntries xs ys
  | .tagged t x, .tagged s y => t = s && x.like y
  | _, _ => false

/-- Whether two lists are alike, item by item. -/
def Value.likeItems : List Value → List Value → Bool
  | [], [] => true
  | x :: xs, y :: ys => x.like y && Value.likeItems xs ys
  | _, _ => false

/-- Whether each entry of the first list has one alike in the second. -/
def Value.likeEntries : List (Value × Value) → List (Value × Value) → Bool
  | [], _ => true
  | (k, x) :: xs, ys => ys.any (fun e => k.like e.1 && x.like e.2) && Value.likeEntries xs ys

end

/-! ## Looking through tags -/

/-- The value under its tags. -/
def Value.untagged : Value → Value
  | .tagged _ content => content.untagged
  | v => v

/-- The text of a string, tagged or not. -/
def Value.text? (v : Value) : Option String :=
  match v.untagged with
  | .string s => some s
  | _ => none

end RouteFleet.Yaml
