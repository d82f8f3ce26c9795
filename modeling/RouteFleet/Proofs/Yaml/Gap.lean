import RouteFleet.Yaml.Token.Scalar
import RouteFleet.Proofs.Yaml.Cursor

/-! # Gaps between words

What the scanner makes of spaces and of breaks with indentation after them: the spaces count as they
are if no break is among them, and of breaks each is remembered while the indentation is not.
-/

namespace RouteFleet.Yaml

open Style

/-- Whether no gap goes on here: what stands next, if anything, is neither a blank nor a break. -/
def EndsGap (cs : List Char) : Prop := ∀ c ∈ cs.head?, isBlank c = false ∧ isBreak c = false

theorem endsGap_cons {c : Char} {cs : List Char} :
    EndsGap (c :: cs) ↔ isBlank c = false ∧ isBreak c = false := by
  simp [EndsGap]

theorem isBlank_of_isBreak {c : Char} (h : isBreak c = true) : isBlank c = false := by
  cases hb : isBlank c with
  | false => rfl
  | true =>
    simp only [isBlank, Bool.or_eq_true, beq_iff_eq] at hb
    rcases hb with rfl | rfl <;> exact absurd h (by decide)

/-- Whether a gap begins here, or nothing is left. -/
def BeginsGap (cs : List Char) : Prop := ∀ c ∈ cs.head?, isBlank c = true ∨ isBreak c = true

theorem beginsGap_cons {c : Char} {cs : List Char} :
    BeginsGap (c :: cs) ↔ isBlank c = true ∨ isBreak c = true := by
  simp [BeginsGap]

theorem gapAt_eq_true {cs tail : List Char} (htail : BeginsGap tail) {cur : Cursor}
    (h : cur.rest = cs ++ tail) : cur.gapAt cs.length = true := by
  rw [Cursor.gapAt, h, List.getElem?_append_right (Nat.le_refl _), Nat.sub_self]
  cases tail with
  | nil => rfl
  | cons c tail =>
    rcases beginsGap_cons.mp htail with hc | hc <;> simp [hc]

/-- The characters that a gap consists of. -/
def gapChars : List Char :=
  [' ', '\t', '\n', '\r', Char.ofNat 0x85, Char.ofNat 0x2028, Char.ofNat 0x2029]

theorem mem_gapChars {c : Char} (h : isBlank c = true ∨ isBreak c = true) : c ∈ gapChars := by
  have hofNat : ∀ n, c.toNat = n → c = Char.ofNat n := fun n hn => by rw [← hn, Char.ofNat_toNat]
  simp only [isBlank, isBreak, Bool.or_eq_true, beq_iff_eq] at h
  rcases h with (rfl | rfl) | ((((rfl | rfl) | h) | h) | h)
  · decide
  · decide
  · decide
  · decide
  · rw [hofNat _ h]
    decide
  · rw [hofNat _ h]
    decide
  · rw [hofNat _ h]
    decide

/-! ## Spaces -/

theorem spaces_succ (n : Nat) : spaces (n + 1) = ' ' :: spaces n := rfl

@[simp] theorem spaces_zero : spaces 0 = [] := rfl

@[simp] theorem length_spaces (n : Nat) : (spaces n).length = n := List.length_replicate

theorem spaces_add (m n : Nat) : spaces (m + n) = spaces m ++ spaces n :=
  List.replicate_append_replicate.symm

theorem all_spaces {p : Char → Bool} (h : p ' ' = true) (n : Nat) : (spaces n).all p = true :=
  List.all_eq_true.mpr fun _ hc => List.eq_of_mem_replicate hc ▸ h

theorem noBreak_spaces (n : Nat) : (spaces n).all (!isBreak ·) = true := all_spaces rfl n

namespace Scalar

theorem Gap.folded_blanks (cs : List Char) : Gap.folded { blanks := cs } = cs := rfl

/-! ## Taking gaps -/

theorem takeGap_of_endsGap {cur : Cursor} (h : EndsGap cur.rest) (indent : Int) (fuel : Nat)
    (g : Gap) : takeGap indent fuel g cur = some (g, cur) := by
  cases fuel with
  | zero => rfl
  | succ fuel =>
    cases hrest : cur.rest with
    | nil => simp [takeGap, hrest]
    | cons c tail =>
      rw [hrest, endsGap_cons] at h
      simp [takeGap, hrest, h.1, h.2]

/-- Spaces on the line of the words before and after count as they are. -/
theorem takeGap_spaces {indent : Int} {n fuel : Nat} {g : Gap} {cur : Cursor} {tail : List Char}
    (hg : g.broken = false) (h : cur.rest = spaces n ++ tail) (htail : EndsGap tail)
    (hfuel : n ≤ fuel) : takeGap indent fuel g cur =
      some ({ g with blanks := g.blanks ++ spaces n }, cur.pass (spaces n)) := by
  induction n generalizing fuel g cur with
  | zero => simpa using takeGap_of_endsGap (by simpa [h] using htail) indent fuel g
  | succ n ih =>
    obtain ⟨fuel, rfl⟩ : ∃ m, fuel = m + 1 := ⟨fuel - 1, by omega⟩
    rw [spaces_succ, List.cons_append] at h
    have hnext : (cur.pass [' ']).rest = spaces n ++ tail := Cursor.rest_pass_of_eq h
    have hblank : isBlank ' ' = true := rfl
    rw [takeGap]
    simp only [h, hblank, hg, if_true, Bool.false_eq_true, if_false]
    rw [Cursor.skip_one_eq_pass h rfl, ih rfl hnext (by omega)]
    simp [spaces_succ, ← Cursor.pass_append]

/-- Indentation after a break is passed over. -/
theorem takeGap_indentation {indent : Int} {n fuel : Nat} {g : Gap} {cur : Cursor}
    {tail : List Char} (hg : g.broken = true) (h : cur.rest = spaces n ++ tail)
    (htail : EndsGap tail) (hfuel : n ≤ fuel) :
    takeGap indent fuel g cur = some (g, cur.pass (spaces n)) := by
  induction n generalizing fuel cur with
  | zero => simpa using takeGap_of_endsGap (by simpa [h] using htail) indent fuel g
  | succ n ih =>
    obtain ⟨fuel, rfl⟩ : ∃ m, fuel = m + 1 := ⟨fuel - 1, by omega⟩
    rw [spaces_succ, List.cons_append] at h
    have hnext : (cur.pass [' ']).rest = spaces n ++ tail := Cursor.rest_pass_of_eq h
    have hblank : isBlank ' ' = true := rfl
    have htab : (' ' == '\t') = false := rfl
    rw [takeGap]
    simp only [h, hblank, hg, htab, if_true, Bool.false_and, Bool.false_eq_true, if_false]
    rw [Cursor.skip_one_eq_pass h rfl, ih hnext (by omega)]
    simp [spaces_succ, ← Cursor.pass_append]

/-- Breaks after the first one are remembered apart from it. -/
theorem takeGap_more {indent : Int} {bs : List Char} {n fuel : Nat} {g : Gap} {cur : Cursor}
    {tail : List Char} (hg : g.broken = true) (hbs : bs.all Cursor.isPlainBreak)
    (h : cur.rest = bs ++ (spaces n ++ tail)) (htail : EndsGap tail)
    (hfuel : bs.length + n ≤ fuel) : takeGap indent fuel g cur =
      some ({ g with more := g.more ++ bs }, cur.pass (bs ++ spaces n)) := by
  induction bs generalizing fuel g cur with
  | nil => simpa using takeGap_indentation hg h htail (by simpa using hfuel)
  | cons b bs ih =>
    rw [List.all_cons, Bool.and_eq_true] at hbs
    rw [List.length_cons] at hfuel
    obtain ⟨fuel, rfl⟩ : ∃ m, fuel = m + 1 := ⟨fuel - 1, by omega⟩
    have hbreak := Cursor.isBreak_of_isPlainBreak hbs.1
    have hnext : (cur.pass [b]).rest = bs ++ (spaces n ++ tail) := Cursor.rest_pass_of_eq h
    rw [takeGap]
    simp only [h, List.cons_append, isBlank_of_isBreak hbreak, hbreak, hg, if_true,
      Bool.false_eq_true, if_false, Cursor.takeBreak_eq_pass h hbs.1]
    rw [ih rfl hbs.2 hnext (by omega)]
    simp [← Cursor.pass_append]

/-- A gap with breaks in it remembers the first and the others, and no blanks. -/
theorem takeGap_breaks {indent : Int} {b : Char} {bs : List Char} {n fuel : Nat} {g : Gap}
    {cur : Cursor} {tail : List Char} (hg : g.broken = false)
    (hb : Cursor.isPlainBreak b = true) (hbs : bs.all Cursor.isPlainBreak)
    (h : cur.rest = b :: (bs ++ (spaces n ++ tail))) (htail : EndsGap tail)
    (hfuel : bs.length + n < fuel) : takeGap indent fuel g cur =
      some ({ blanks := [], broken := true, first := [b], more := g.more ++ bs },
        cur.pass (b :: (bs ++ spaces n))) := by
  obtain ⟨fuel, rfl⟩ : ∃ m, fuel = m + 1 := ⟨fuel - 1, by omega⟩
  have hbreak := Cursor.isBreak_of_isPlainBreak hb
  have hnext : (cur.pass [b]).rest = bs ++ (spaces n ++ tail) := Cursor.rest_pass_of_eq h
  rw [takeGap]
  simp only [h, isBlank_of_isBreak hbreak, hbreak, hg, if_true, Bool.false_eq_true, if_false,
    Cursor.takeBreak_eq_pass h hb]
  rw [takeGap_more rfl hbs hnext htail (by omega), ← Cursor.pass_append]
  rfl

end Scalar

end RouteFleet.Yaml
