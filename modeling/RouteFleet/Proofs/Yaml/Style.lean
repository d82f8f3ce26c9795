import RouteFleet.Proofs.List
import RouteFleet.Proofs.Yaml.Gap
import RouteFleet.Yaml.Style

/-! # What the styles allow

The conditions under which a text is written without quotes, between single quotes or as a literal
block, in terms of where characters stand in the text.
-/

namespace RouteFleet.Yaml

open Text

namespace Style

variable {p q : Char → Bool}

/-! ## Neighbours -/

theorem adjacent_eq_true_iff {cs : List Char} : adjacent p q cs = true ↔
    ∃ pre a b post, cs = pre ++ a :: b :: post ∧ p a = true ∧ q b = true := by
  induction cs with
  | nil => simp [adjacent]
  | cons c cs ih =>
    cases cs with
    | nil =>
      simp only [adjacent, Bool.false_eq_true, false_iff, not_exists, not_and]
      intro pre a b post h
      have := congrArg List.length h
      simp at this
      omega
    | cons d cs =>
      rw [adjacent, Bool.or_eq_true, Bool.and_eq_true, ih]
      constructor
      · rintro (⟨hp, hq⟩ | ⟨pre, a, b, post, h, hp, hq⟩)
        · exact ⟨[], c, d, cs, rfl, hp, hq⟩
        · exact ⟨c :: pre, a, b, post, by rw [h]; rfl, hp, hq⟩
      · rintro ⟨pre, a, b, post, h, hp, hq⟩
        cases pre with
        | nil =>
          simp only [List.nil_append, List.cons.injEq] at h
          obtain ⟨rfl, rfl, rfl⟩ := h
          exact .inl ⟨hp, hq⟩
        | cons x pre =>
          simp only [List.cons_append, List.cons.injEq] at h
          exact .inr ⟨pre, a, b, post, h.2, hp, hq⟩

/-- Where no two neighbours are in the classes `p` and `q`, those at a place in the text are not. -/
theorem not_adjacent_at {cs pre : List Char} {a b : Char} {post : List Char}
    (h : adjacent p q cs = false) (hcs : cs = pre ++ a :: b :: post) (ha : p a = true) :
    q b = false := by
  cases hb : q b with
  | false => rfl
  | true =>
    rw [adjacent_eq_true_iff.mpr ⟨pre, a, b, post, hcs, ha, hb⟩] at h
    exact h

theorem adjacent_of_append {cs ds : List Char} (h : adjacent p q (cs ++ ds) = false) :
    adjacent p q ds = false := by
  rw [Bool.eq_false_iff] at h ⊢
  intro hds
  obtain ⟨pre, a, b, post, rfl, ha, hb⟩ := adjacent_eq_true_iff.mp hds
  exact h (adjacent_eq_true_iff.mpr ⟨cs ++ pre, a, b, post, by simp, ha, hb⟩)

/-- What follows a run of characters in the class `p` does not begin in the class `q`. -/
theorem head_of_not_adjacent {cs ds : List Char} {c : Char}
    (h : adjacent p q (cs ++ c :: ds) = false) (hc : p c = true) :
    ∀ d ∈ ds.head?, q d = false := by
  intro d hd
  cases ds with
  | nil => exact nomatch hd
  | cons e ds =>
    obtain rfl : e = d := by simpa using hd
    exact not_adjacent_at h rfl hc

/-! ## Printable characters -/

/-- The only printable blank is the space. -/
theorem eq_space_of_isBlank {c : Char} (h : isPrintable c = true) (hb : isBlank c = true) :
    c = ' ' := by
  simp only [isBlank, Bool.or_eq_true, beq_iff_eq] at hb
  rcases hb with rfl | rfl
  · rfl
  · exact absurd h (by decide)

/-- Printable breaks stand for themselves. -/
theorem isPlainBreak_of_isBreak {c : Char} (h : isPrintable c = true) (hb : isBreak c = true) :
    Cursor.isPlainBreak c = true := by
  simp only [isBreak, Bool.or_eq_true, beq_iff_eq] at hb
  simp only [Cursor.isPlainBreak, Bool.or_eq_true, beq_iff_eq]
  rcases hb with (((hb | rfl) | hb) | hb) | hb
  · exact .inl (.inl hb)
  · exact absurd h (by decide)
  · simp [isPrintable, hb] at h
  · exact .inl (.inr hb)
  · exact .inr hb

theorem needsEscapes_eq_false_iff {cs : List Char} : needsEscapes cs = false ↔
    (∀ c ∈ cs, isPrintable c = true) ∧ adjacent (· == ' ') isBreak cs = false := by
  simp [needsEscapes]

/-- A text begins with some spaces, perhaps none, and goes on without one. -/
theorem exists_spaces_append (cs : List Char) :
    ∃ n ds, cs = spaces n ++ ds ∧ ∀ c ∈ ds.head?, c ≠ ' ' := by
  obtain ⟨w, ds, rfl, hw, hds⟩ := exists_run_append (· == ' ') cs
  refine ⟨w.length, ds, ?_, fun c hc => by simpa using hds c hc⟩
  rw [spaces, ← List.eq_replicate_of_mem fun c hc => by simpa using List.all_eq_true.mp hw c hc]

end Style

end RouteFleet.Yaml
