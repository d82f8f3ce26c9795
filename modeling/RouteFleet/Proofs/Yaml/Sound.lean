import RouteFleet.Proofs.Decimal.Binary64
import RouteFleet.Yaml.Printer

/-! # Values that come of documents

Not every value can come of a document: numbers are in range, no two keys of a mapping are alike, a
tag does not stand under another, and collections do not nest too deeply. `Value.Sound` collects this.
-/

namespace RouteFleet

namespace Yaml

/-- Whether a number can come of a document. -/
def Number.Sound : Number → Prop
  | .integer n => Int64.minValue.toInt ≤ n ∧ n < (UInt64.size : Int)
  | .real r => r.IsCanonical

namespace Value

/-- Whether no two entries have keys alike. -/
def Unlike (entries : List (Value × Value)) : Prop :=
  entries.Pairwise fun e e' => e'.1.like e.1 = false

/-- Whether a value can come of a document in which collections nest at most `depth` deep. -/
inductive Sound : (depth : Nat) → Value → Prop
  | null {d : Nat} : Sound d .null
  | bool {d : Nat} (b : Bool) : Sound d (.bool b)
  | number {d : Nat} {n : Number} (h : n.Sound) : Sound d (.number n)
  | string {d : Nat} (s : String) : Sound d (.string s)
  | sequence {d : Nat} {items : List Value} (h : ∀ v ∈ items, Sound d v) :
    Sound (d + 1) (.sequence items)
  | mapping {d : Nat} {entries : List (Value × Value)} (hkey : ∀ e ∈ entries, Sound d e.1)
    (hvalue : ∀ e ∈ entries, Sound d e.2) (hunlike : Unlike entries) :
    Sound (d + 1) (.mapping entries)
  | tagged {d : Nat} (t : String) {content : Value} (h : Sound d content)
    (hcontent : content.isTagged = false) : Sound d (.tagged t content)

end Value

end Yaml

end RouteFleet
