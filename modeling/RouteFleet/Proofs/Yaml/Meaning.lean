import RouteFleet.Proofs.Decimal.Shortest
import RouteFleet.Proofs.Yaml.Scalar
import RouteFleet.Proofs.Yaml.Sound
import RouteFleet.Yaml.Node

/-! # What written scalars mean

The text of a number that is in range means that number again, a whole one
(`Meaning.ofPlain_integer`) or one of double precision (`Meaning.ofPlain_real`), and so does the text
of every other scalar as it is written (`Value.scalarValue?_scalarText`).
-/

namespace RouteFleet

open Text

namespace Binary64

theorem ofLiteral?_of_isDigit {d : Char} {cs : List Char} (hd : isDigit d = true) :
    ofLiteral? (d :: cs) = (decimal? (d :: cs)).map fun e => ofDecimal false e.1 e.2 := by
  have hsign : d ≠ '-' ∧ d ≠ '+' := by
    have hall : "0123456789".toList.all (fun d => d != '-' && d != '+') = true := by decide
    simpa using List.all_eq_true.mp hall d (mem_decimalDigits hd)
  rw [ofLiteral?]
  · exact fun ds h => hsign.1 (List.cons.inj h).1
  · exact fun ds h => hsign.2 (List.cons.inj h).1

end Binary64

namespace Yaml

open Binary64

/-- The decimal of a canonical number is read back as the number. -/
theorem ofDecimal_writtenDecimal {negative : Bool} {m : Nat} {q : Int}
    (h : (finite negative m q).IsCanonical) :
    ofDecimal negative (writtenDecimal m q).1 (writtenDecimal m q).2 = .finite negative m q := by
  rw [writtenDecimal]
  split
  · rename_i hm
    obtain rfl : q = -1074 := h.2.2.2.resolve_left (by omega)
    rw [hm]
    rfl
  · rename_i hm
    exact ofDecimal_shortest h hm

/-- The text of a finite number is read back as the number. -/
theorem ofLiteral?_toText {negative : Bool} {m : Nat} {q : Int}
    (h : (finite negative m q).IsCanonical) :
    ofLiteral? (toText (.finite negative m q)).toList = some (.finite negative m q) := by
  obtain ⟨whole, fraction, exponent, htext, hdecimal⟩ := exists_toText_finite negative m q
  obtain ⟨d, ds, hds⟩ := List.exists_cons_of_ne_nil hdecimal.ne_nil
  have hd : isDigit d = true := hdecimal.isDigit_whole d (by simp [hds])
  obtain ⟨i, hi⟩ := decimal?_decimalText hdecimal
  have hvalue : ofDecimal negative ((writtenDecimal m q).1 * 10 ^ i) ((writtenDecimal m q).2 - i) =
      .finite negative m q := by
    rw [ofDecimal_mul_pow, ofDecimal_writtenDecimal h]
  rw [htext]
  cases negative with
  | false =>
    rw [hds, List.cons_append] at hi
    rw [if_neg Bool.false_ne_true, List.nil_append, hds, List.cons_append,
      ofLiteral?_of_isDigit hd, hi, Option.map_some, hvalue]
  | true =>
    rw [if_pos rfl, List.singleton_append, ofLiteral?, hi, Option.map_some, hvalue]

namespace Meaning

/-! ## Texts that begin as numbers do -/

/-- Whether a text begins with a digit, or with a dash and a digit. -/
def startsNumber : List Char → Bool
  | c :: d :: _ => isDigit c || (c == '-' && isDigit d)
  | [c] => isDigit c
  | [] => false

theorem startsNumber_of_beginsNumber {cs : List Char} (h : BeginsNumber cs) :
    startsNumber cs = true := by
  obtain ⟨d, rest, hd, rfl | rfl⟩ := h
  · cases rest <;> simp [startsNumber, hd]
  · simp [startsNumber, hd]

theorem ne_of_beginsNumber {cs ds : List Char} (h : BeginsNumber cs)
    (hds : startsNumber ds = false) : cs ≠ ds := by
  rintro rfl
  exact Bool.false_ne_true (hds.symm.trans (startsNumber_of_beginsNumber h))

theorem beq_of_beginsNumber {s t : String} (h : BeginsNumber s.toList)
    (ht : startsNumber t.toList = false) : (s == t) = false := by
  rw [beq_eq_false_iff_ne]
  exact fun heq => ne_of_beginsNumber h ht (congrArg String.toList heq)

theorem ofPlain_of_beginsNumber {s : String} (h : BeginsNumber s.toList) : ofPlain s =
    match integer? s.toList with
    | some n => .integer n
    | none =>
      if isPaddedDigits s.toList then .text
      else match real? s.toList with
      | some r => .real r
      | none => .text := by
  have hnull : isNull s = false := by
    simp only [isNull, beq_of_beginsNumber h (show startsNumber "null".toList = false by decide),
      beq_of_beginsNumber h (show startsNumber "Null".toList = false by decide),
      beq_of_beginsNumber h (show startsNumber "NULL".toList = false by decide),
      beq_of_beginsNumber h (show startsNumber "~".toList = false by decide), Bool.or_false]
  have hbool : bool? s = none := by
    simp only [bool?, beq_of_beginsNumber h (show startsNumber "true".toList = false by decide),
      beq_of_beginsNumber h (show startsNumber "True".toList = false by decide),
      beq_of_beginsNumber h (show startsNumber "TRUE".toList = false by decide),
      beq_of_beginsNumber h (show startsNumber "false".toList = false by decide),
      beq_of_beginsNumber h (show startsNumber "False".toList = false by decide),
      beq_of_beginsNumber h (show startsNumber "FALSE".toList = false by decide), Bool.or_false,
      Bool.false_eq_true, if_false]
  rw [ofPlain, beq_of_beginsNumber h (show startsNumber "".toList = false by decide), hnull, hbool]
  rfl

theorem real?_of_beginsNumber {cs : List Char} (h : BeginsNumber cs) : real? cs =
    match ofLiteral? cs with
    | some (.finite negative m q) => some (.finite negative m q)
    | _ => none := by
  have hcs : BeginsNumber (String.ofList cs).toList := by rwa [String.toList_ofList]
  have hne : ∀ t : String, startsNumber t.toList = false → (String.ofList cs == t) = false :=
    fun t ht => beq_of_beginsNumber hcs ht
  refine (if_neg ?_).trans ((if_neg ?_).trans (if_neg ?_))
  · simp only [hne ".inf" (by decide), hne ".Inf" (by decide), hne ".INF" (by decide),
      hne "+.inf" (by decide), hne "+.Inf" (by decide), hne "+.INF" (by decide), Bool.or_false,
      Bool.false_eq_true, not_false_eq_true]
  · simp only [hne "-.inf" (by decide), hne "-.Inf" (by decide), hne "-.INF" (by decide),
      Bool.or_false, Bool.false_eq_true, not_false_eq_true]
  · simp only [hne ".nan" (by decide), hne ".NaN" (by decide), hne ".NAN" (by decide),
      Bool.or_false, Bool.false_eq_true, not_false_eq_true]

/-! ## Whole numbers -/

theorem not_sign_of_isDigit {d : Char} (h : isDigit d = true) : d ≠ '-' ∧ d ≠ '+' := by
  have hall : "0123456789".toList.all (fun d => d != '-' && d != '+') = true := by decide
  simpa using List.all_eq_true.mp hall d (mem_decimalDigits h)

theorem isPaddedDigits_cons {d : Char} (hd : isDigit d = true) (ds : List Char) :
    isPaddedDigits (d :: ds) = (d == '0' && !ds.isEmpty && ds.all isDigit) := by
  obtain ⟨hminus, hplus⟩ := not_sign_of_isDigit hd
  cases ds with
  | nil => by_cases h : d = '0' <;> simp [isPaddedDigits, hminus, hplus]
  | cons e es => by_cases h : d = '0' <;> simp [isPaddedDigits, hminus, hplus, h]

theorem integer?_cons {d : Char} (hd : isDigit d = true) (ds : List Char) :
    integer? (d :: ds) = integer?.natural? (d :: ds) := by
  obtain ⟨hminus, hplus⟩ := not_sign_of_isDigit hd
  rw [integer?]
  · exact fun es h => hminus (List.cons.inj h).1
  · exact fun es h => hplus (List.cons.inj h).1

/-- Without a mark of their base, digits are those of base ten. -/
theorem magnitude?_eq {cs : List Char}
    (h : ∀ d ds, cs = '0' :: d :: ds → d ≠ 'x' ∧ d ≠ 'o' ∧ d ≠ 'b') :
    magnitude? cs = if isPaddedDigits cs then none else digits? 10 cs := by
  rw [magnitude?]
  · exact fun ds heq => (h _ ds heq).1 rfl
  · exact fun ds heq => (h _ ds heq).2.1 rfl
  · exact fun ds heq => (h _ ds heq).2.2 rfl

theorem not_baseMark_of_isDigit {d : Char} (h : isDigit d = true) : d ≠ 'x' ∧ d ≠ 'o' ∧ d ≠ 'b' := by
  have hall : "0123456789".toList.all (fun d => d != 'x' && d != 'o' && d != 'b') = true := by decide
  simpa [and_assoc] using List.all_eq_true.mp hall d (mem_decimalDigits h)

theorem isPaddedDigits_toDigits (n : Nat) : isPaddedDigits (Nat.toDigits 10 n) = false := by
  by_cases hn : n = 0
  · rw [hn]
    decide
  · have hfirst := head?_toDigits_ne_zero (Nat.pos_of_ne_zero hn)
    obtain ⟨d, ds, hds, hd⟩ := exists_toDigits_cons n
    rw [hds] at hfirst ⊢
    have hzero : d ≠ '0' := fun h => hfirst (congrArg some h)
    rw [isPaddedDigits_cons hd]
    simp [hzero]

theorem magnitude?_toDigits (n : Nat) : magnitude? (Nat.toDigits 10 n) = some n := by
  rw [magnitude?_eq, isPaddedDigits_toDigits, if_neg Bool.false_ne_true, digits?_toDigits]
  intro d ds h
  exact not_baseMark_of_isDigit (isDigit_of_mem_toDigits (n := n) (by rw [h]; simp))

theorem integer?_toString {n : Int} (hlow : -(2 ^ 127 : Nat) ≤ n) (hhigh : n < (2 ^ 128 : Nat)) :
    integer? (toString n).toList = some n := by
  rcases toList_toString_int n with ⟨hn, htext⟩ | ⟨hn, htext⟩
  · have hdigits := magnitude?_toDigits n.toNat
    obtain ⟨d, ds, hds, hd⟩ := exists_toDigits_cons n.toNat
    rw [htext]
    rw [hds] at hdigits ⊢
    have hlt : n.toNat < Nat.pow 2 128 := by
      show n.toNat < 2 ^ 128
      omega
    rw [integer?_cons hd, integer?.natural?, hdigits]
    simp only [if_pos hlt, Int.toNat_of_nonneg hn]
  · have hdigits := magnitude?_toDigits (-n).toNat
    have hle : (-n).toNat ≤ Nat.pow 2 127 := by
      show (-n).toNat ≤ 2 ^ 127
      omega
    rw [htext, integer?, hdigits]
    simp only [if_pos hle, Option.some.injEq]
    omega

theorem ofPlain_integer {n : Int} (h : (Number.integer n).Sound) :
    ofPlain (toString n) = .integer n := by
  obtain ⟨hlow, hhigh⟩ := h
  have hmin : Int64.minValue.toInt = -9223372036854775808 := by decide
  have hsize : (UInt64.size : Int) = 18446744073709551616 := by decide
  rw [ofPlain_of_beginsNumber (beginsNumber_toString_int n),
    integer?_toString (by rw [hmin] at hlow; omega) (by rw [hsize] at hhigh; omega)]

/-! ## Numbers of double precision -/

/-- What tells a decimal from a whole number is not a digit. -/
theorem exists_mark {n : Nat} {k : Int} {whole fraction : List Char} {exponent : Option Int}
    (h : IsDecimalText n k whole fraction exponent) :
    ∃ c ∈ pointText fraction ++ exponentText exponent, c = '.' ∨ c = 'e' := by
  rcases h.marked with hfraction | hexponent
  · refine ⟨'.', ?_, .inl rfl⟩
    rw [pointText, if_neg hfraction]
    exact List.mem_append_left _ List.mem_cons_self
  · obtain ⟨e, rfl⟩ := Option.ne_none_iff_exists'.mp hexponent
    exact ⟨'e', List.mem_append_right _ List.mem_cons_self, .inr rfl⟩

theorem isPaddedDigits_dash {d : Char} (hd : isDigit d = true) (ds : List Char) :
    isPaddedDigits ('-' :: d :: ds) = isPaddedDigits (d :: ds) := by
  obtain ⟨hminus, hplus⟩ := not_sign_of_isDigit hd
  simp [isPaddedDigits, hminus, hplus]

/-- A decimal is no whole number, and not one that begins with a zero too much. -/
theorem magnitude?_decimalText {n : Nat} {k : Int} {whole fraction : List Char}
    {exponent : Option Int} (h : IsDecimalText n k whole fraction exponent) :
    magnitude? (whole ++ (pointText fraction ++ exponentText exponent)) = none ∧
      isPaddedDigits (whole ++ (pointText fraction ++ exponentText exponent)) = false := by
  obtain ⟨d, ds, hds⟩ := List.exists_cons_of_ne_nil h.ne_nil
  have hd : isDigit d = true := h.isDigit_whole d (by simp [hds])
  obtain ⟨c, hc, hmark⟩ := exists_mark h
  have hforeign : isDigit c = false ∧ ∀ n, digitStep 10 (some n) c = none := by
    rcases hmark with rfl | rfl
    · exact ⟨by decide, fun n => rfl⟩
    · exact ⟨by decide, fun n => rfl⟩
  have hpadded : isPaddedDigits (whole ++ (pointText fraction ++ exponentText exponent)) = false := by
    have hall : (ds ++ (pointText fraction ++ exponentText exponent)).all isDigit = false := by
      rw [List.all_eq_false]
      exact ⟨c, List.mem_append_right _ hc, by simp [hforeign.1]⟩
    rw [hds, List.cons_append, isPaddedDigits_cons hd, hall, Bool.and_false]
  refine ⟨?_, hpadded⟩
  rw [magnitude?_eq, hpadded, if_neg Bool.false_ne_true]
  · exact digits?_eq_none hforeign.2 (List.mem_append_right _ hc)
  · intro x xs hxs
    have hx := isNumberChar_mem (isNumberChar_decimalText h (c := x) (by rw [hxs]; simp))
    have hall : ("0123456789".toList ++ ['.', 'e', '-']).all
        (fun x => x != 'x' && x != 'o' && x != 'b') = true := by decide
    simpa [and_assoc] using List.all_eq_true.mp hall x hx

theorem ofPlain_finite {negative : Bool} {m : Nat} {q : Int}
    (h : (finite negative m q).IsCanonical) :
    ofPlain (toText (.finite negative m q)) = .real (.finite negative m q) := by
  have hliteral := ofLiteral?_toText h
  obtain ⟨whole, fraction, exponent, htext, hdecimal⟩ := exists_toText_finite negative m q
  obtain ⟨hmagnitude, hpadded⟩ := magnitude?_decimalText hdecimal
  obtain ⟨d, ds, hds⟩ := List.exists_cons_of_ne_nil hdecimal.ne_nil
  have hd : isDigit d = true := hdecimal.isDigit_whole d (by simp [hds])
  rw [hds, List.cons_append] at hmagnitude hpadded htext
  obtain ⟨hbegins, hinteger, hpadded'⟩ : BeginsNumber (toText (.finite negative m q)).toList ∧
      integer? (toText (.finite negative m q)).toList = none ∧
      isPaddedDigits (toText (.finite negative m q)).toList = false := by
    rw [htext]
    cases negative with
    | false =>
      refine ⟨⟨d, _, hd, .inl rfl⟩, ?_, hpadded⟩
      rw [if_neg Bool.false_ne_true, List.nil_append, integer?_cons hd, integer?.natural?, hmagnitude]
    | true =>
      refine ⟨⟨d, _, hd, .inr rfl⟩, ?_, (isPaddedDigits_dash hd _).trans hpadded⟩
      rw [if_pos rfl, List.singleton_append, integer?, hmagnitude]
  rw [ofPlain_of_beginsNumber hbegins, hinteger, hpadded', real?_of_beginsNumber hbegins, hliteral]
  rfl

theorem ofPlain_real {r : Binary64} (h : r.IsCanonical) : ofPlain r.toText = .real r := by
  cases r with
  | nan => decide
  | infinite negative => cases negative <;> decide
  | finite negative m q => exact ofPlain_finite h

end Meaning

/-! ## Scalars -/

namespace Value

/-- A text that is written without quotes is not read as anything else. -/
theorem ofPlain_of_plain {s : String} (h : Style.ofText s = .plain) : Meaning.ofPlain s = .text := by
  rw [Style.ofText] at h
  split at h
  · split at h
    · cases h
    · cases h
  · split at h
    · rename_i hplain
      rw [Bool.and_eq_true, Bool.not_eq_true', Style.isAmbiguous, Bool.or_eq_false_iff] at hplain
      simpa using hplain.2.1
    · split at h
      · cases h
      · cases h

/-- A scalar that can come of a document means what is written. -/
theorem scalarValue?_scalarText {d : Nat} {v : Value} (hv : v.isScalar = true) (h : Sound d v) :
    Node.scalarValue? none (decide (v.style = .plain)) v.scalarText = some v := by
  cases h with
  | null => rfl
  | bool b => cases b <;> rfl
  | @number _ n h =>
    cases n with
    | integer n =>
      have hrange : (decide (Int64.minValue.toInt ≤ n) && decide (n < (UInt64.size : Int))) = true := by
        rw [Bool.and_eq_true, decide_eq_true_eq, decide_eq_true_eq]
        exact h
      show (Meaning.ofPlain (toString n)).toValue? (toString n) = _
      rw [Meaning.ofPlain_integer h, Meaning.toValue?, if_pos hrange]
    | real r =>
      show (Meaning.ofPlain r.toText).toValue? r.toText = _
      rw [Meaning.ofPlain_real h]
      rfl
  | string s =>
    show Node.scalarValue? none (decide (Style.ofText s = .plain)) s = _
    by_cases hplain : Style.ofText s = .plain
    · rw [decide_eq_true hplain, Node.scalarValue?, if_pos rfl, ofPlain_of_plain hplain]
      rfl
    · rw [decide_eq_false hplain]
      rfl
  | sequence => exact nomatch hv
  | mapping => exact nomatch hv
  | tagged => exact nomatch hv

end Value

end Yaml

end RouteFleet
