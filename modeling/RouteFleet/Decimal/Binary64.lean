import RouteFleet.Text.Split

/-! # Numbers of double precision and their decimal text

A finite number of double precision is a whole number below `2 ^ 53` times a power of two. A decimal
is read as the number nearest to it, of two nearest the one with the even whole part; a number is
written with the fewest decimal digits that read back as it, and of those the nearest to it.
-/

namespace RouteFleet

open Text

/-- A number of double precision. -/
inductive Binary64 where
  /-- The number `mantissa * 2 ^ exponent`, with a sign. -/
  | finite (negative : Bool) (mantissa : Nat) (exponent : Int)
  | infinite (negative : Bool)
  | nan
deriving DecidableEq, Repr, Inhabited

namespace Binary64

/-! ## From decimals -/

/-- A positive fraction. -/
structure Ratio where
  num : Nat
  den : Nat

/-- The ratio `n * b ^ k`. -/
def Ratio.scaled (n b : Nat) (k : Int) : Ratio :=
  if 0 ≤ k then ⟨n * Nat.pow b k.toNat, 1⟩ else ⟨n, Nat.pow b (-k).toNat⟩

/-- The ratio divided by `2 ^ q`. -/
def Ratio.shift (r : Ratio) (q : Int) : Ratio :=
  if 0 ≤ q then ⟨r.num, r.den * Nat.pow 2 q.toNat⟩ else ⟨r.num * Nat.pow 2 (-q).toNat, r.den⟩

/-- The whole number nearest to the ratio; halfway, the even one. -/
def Ratio.round (r : Ratio) : Nat :=
  let n := r.num / r.den
  let rest := 2 * (r.num % r.den)
  if rest < r.den then n else if r.den < rest then n + 1 else if n % 2 = 0 then n else n + 1

/-- The greatest `e` with `2 ^ e` not above the ratio. -/
def Ratio.log2 (r : Ratio) : Int :=
  let e : Int := (r.num.log2 : Int) - (r.den.log2 : Int)
  let s := r.shift e
  if s.num < s.den then e - 1 else e

/-- The number nearest to a positive ratio. -/
def ofRatio (negative : Bool) (r : Ratio) : Binary64 :=
  let q := max (r.log2 - 52) (-1074)
  let m := (r.shift q).round
  let (m, q) := if m = Nat.pow 2 53 then (Nat.pow 2 52, q + 1) else (m, q)
  if 971 < q then .infinite negative else .finite negative m q

/-- How many decimal digits a number has. -/
def countDigits (n : Nat) : Nat := (Nat.toDigits 10 n).length

/-- The number nearest to `n * 10 ^ k`. Decimals far beyond the range are settled by their size. -/
def ofDecimal (negative : Bool) (n : Nat) (k : Int) : Binary64 :=
  let size : Int := (countDigits n : Int) + k
  if n = 0 || size < -330 then .finite negative 0 (-1074)
  else if 310 < size then .infinite negative
  else ofRatio negative (Ratio.scaled n 10 k)

/-- The decimal `digits * 10 ^ k` that a literal spells: digits with at most one point among them,
and an exponent after them. -/
def decimal? (cs : List Char) : Option (Nat × Int) := do
  let whole := cs.takeWhile isDigit
  let rest := cs.dropWhile isDigit
  let (fraction, rest) := match rest with
    | '.' :: more => (more.takeWhile isDigit, more.dropWhile isDigit)
    | _ => ([], rest)
  if whole.isEmpty && fraction.isEmpty then none
  let n ← digits? 10 (whole ++ fraction)
  let k : Int := -(fraction.length : Int)
  match rest with
  | [] => return (n, k)
  | e :: exponent =>
    if e = 'e' || e = 'E' then
      match exponent with
      | '-' :: ds => return (n, k - (← digits? 10 ds))
      | '+' :: ds => return (n, k + (← digits? 10 ds))
      | ds => return (n, k + (← digits? 10 ds))
    else none

/-- The number that a literal with an optional sign spells. -/
def ofLiteral? : List Char → Option Binary64
  | '-' :: cs => (decimal? cs).map fun d => ofDecimal true d.1 d.2
  | '+' :: cs => (decimal? cs).map fun d => ofDecimal false d.1 d.2
  | cs => (decimal? cs).map fun d => ofDecimal false d.1 d.2

/-! ## To decimals -/

/-- The least `k` with the number below `10 ^ k`. -/
def magnitude (m : Nat) (q : Int) : Int :=
  let r := Ratio.scaled m 2 q
  let guess : Int := (countDigits r.num : Int) - (countDigits r.den : Int)
  let below (k : Int) : Bool :=
    let t := Ratio.scaled 1 10 k
    r.num * t.den < t.num * r.den
  if below guess then guess else guess + 1

/-- The distance of two ratios, as a ratio. -/
def Ratio.distance (r s : Ratio) : Ratio :=
  let a := r.num * s.den
  let b := s.num * r.den
  ⟨if a ≤ b then b - a else a - b, r.den * s.den⟩

/-- Of the two decimals of `digits` digits around the number, the nearest that reads back as it. -/
def nearest? (m : Nat) (q : Int) (top : Int) (digits : Nat) : Option (Nat × Int) :=
  let k := top - digits
  let r := Ratio.scaled m 2 q
  let unit := Ratio.scaled 1 10 k
  let low := (r.num * unit.den) / (r.den * unit.num)
  let readsBack (n : Nat) : Bool := ofDecimal false n k = .finite false m q
  let away (n : Nat) : Ratio := r.distance (Ratio.scaled n 10 k)
  match readsBack low, readsBack (low + 1) with
  | true, true =>
    let a := away low
    let b := away (low + 1)
    if a.num * b.den < b.num * a.den then some (low, k)
    else if b.num * a.den < a.num * b.den then some (low + 1, k)
    else if low % 2 = 0 then some (low, k) else some (low + 1, k)
  | true, false => some (low, k)
  | false, true => some (low + 1, k)
  | false, false => none

/-- The decimal with the fewest digits, `digits` or more of them, that reads back. -/
def shortestFrom (m : Nat) (q : Int) (top : Int) (digits : Nat) : Nat → Nat × Int
  | 0 => (m, 0)
  | fuel + 1 =>
    match nearest? m q top digits with
    | some d => d
    | none => shortestFrom m q top (digits + 1) fuel

/-- Drops zeros at the end of the digits. -/
def trimZeros : Nat → Nat × Int → Nat × Int
  | 0, d => d
  | fuel + 1, (n, k) => if n % 10 = 0 && n ≠ 0 then trimZeros fuel (n / 10, k + 1) else (n, k)

/-- The decimal with the fewest digits that reads back as `m * 2 ^ q`. Seventeen always do. -/
def shortest (m : Nat) (q : Int) : Nat × Int :=
  trimZeros 20 (shortestFrom m q (magnitude m q) 1 17)

/-- Zeros in a row. -/
def zeros (n : Nat) : String := String.ofList (List.replicate n '0')

/-- Writes `digits * 10 ^ k`: with a point and without exponent from a hundred-thousandth up to
sixteen digits before the point, else with an exponent. -/
def writeDecimal (digits : Nat) (k : Int) : String :=
  let ds := toString digits
  let point : Int := ds.length + k
  if 0 ≤ k && point ≤ 16 then ds ++ zeros k.toNat ++ ".0"
  else if 0 < point && point ≤ 16 then
    String.ofList (ds.toList.take point.toNat) ++ "." ++
      String.ofList (ds.toList.drop point.toNat)
  else if -5 < point && point ≤ 0 then "0." ++ zeros (-point).toNat ++ ds
  else
    let exponent := "e" ++ toString (point - 1)
    match ds.toList with
    | [d] => String.singleton d ++ exponent
    | d :: more => String.singleton d ++ "." ++ String.ofList more ++ exponent
    | [] => exponent

/-- The text of a number. -/
def toText : Binary64 → String
  | .nan => ".nan"
  | .infinite false => ".inf"
  | .infinite true => "-.inf"
  | .finite negative m q =>
    let magnitude := if m = 0 then "0.0" else
      let d := shortest m q
      writeDecimal d.1 d.2
    if negative then "-" ++ magnitude else magnitude

end Binary64

end RouteFleet
