/-! # The order of texts

One text comes before another if, where they first differ, it ends or has the smaller character. Of
two different texts one comes before the other (`before_of_not_before`), and never both do.
-/

namespace RouteFleet.Text

/-- Whether one text comes before another. -/
def Before (a b : String) : Prop := a.toList < b.toList

instance decidableBefore (a b : String) : Decidable (Before a b) :=
  inferInstanceAs (Decidable (a.toList < b.toList))

theorem not_before_self (a : String) : ¬ Before a a := List.lt_irrefl a.toList

theorem Before.trans {a b c : String} (h : Before a b) (h' : Before b c) : Before a c :=
  List.lt_trans (α := Char) h h'

theorem before_of_not_before {a b : String} (h : ¬ Before a b) (hne : a ≠ b) : Before b a := by
  rcases Decidable.em (Before b a) with h' | h'
  · exact h'
  · exact absurd (String.toList_inj.mp (List.le_antisymm h' h)) hne

end RouteFleet.Text
