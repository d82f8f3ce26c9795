/-! # Binary digits of π

The digits after the point of π, in base two, as words of 32. They come from the series of two
arcus tangents, π = 16 · arctan (1/5) − 4 · arctan (1/239), computed in whole numbers of a unit so
small that what rounding loses does not reach the digits wanted.
-/

namespace RouteFleet.Pi

/-- The sum of `terms` more terms of the series of arctan (1/x), from the term with the odd number
`odd` on; `power` is the unit divided by that power of `x`, and `plus` the term's sign. -/
def arctanFrom (square : Nat) : (terms odd power : Nat) → (plus : Bool) → (sum : Int) → Int
  | 0, _, _, _, sum => sum
  | n + 1, odd, power, plus, sum =>
    let term : Int := (power / odd : Nat)
    arctanFrom square n (odd + 2) (power / square) (!plus) (if plus then sum + term else sum - term)

/-- The arcus tangent of 1/x, in units of 1/one, from as many terms as are not zero. -/
def arctan (one x : Nat) : Int :=
  arctanFrom (x * x) (Nat.log2 one / (2 * Nat.log2 x) + 1) 1 (one / x) true 0

/-- How many binary digits are computed beyond those wanted. -/
def guardDigits : Nat := 64

/-- π less three, in units of 2 to the power of minus `digits`. -/
def fraction (digits : Nat) : Nat :=
  let one := Nat.pow 2 (digits + guardDigits)
  ((16 * arctan one 5 - 4 * arctan one 239).toNat / Nat.pow 2 guardDigits) % Nat.pow 2 digits

/-- The first `count` words of 32 digits after the point. -/
def words (count : Nat) : Array UInt32 :=
  let digits := fraction (32 * count)
  @Array.ofFn _ count fun i => UInt32.ofNat (digits >>> (32 * (count - 1 - i.val)))

end RouteFleet.Pi
