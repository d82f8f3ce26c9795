import RouteFleet.Yaml.Cursor

/-! # Passing over characters

`Cursor.pass` moves a cursor over given characters, one after another. Each of the cursor's own ways
to move on is such a pass where the characters are those that stand next (`Cursor.skip_eq_pass`,
`Cursor.takeBreak_eq_pass`), so passes can be put together whatever the characters are.
-/

namespace RouteFleet.Yaml

namespace Cursor

/-- Moves over one character. -/
def passChar (c : Char) (cur : Cursor) : Cursor where
  rest := cur.rest.drop 1
  index := cur.index + c.utf8Size
  line := if isBreak c then cur.line + 1 else cur.line
  column := if isBreak c then 0 else cur.column + 1

/-- Moves over some characters. -/
def pass : List Char → Cursor → Cursor
  | [], cur => cur
  | c :: cs, cur => pass cs (passChar c cur)

@[simp] theorem pass_nil (cur : Cursor) : cur.pass [] = cur := rfl

theorem pass_cons (c : Char) (cs : List Char) (cur : Cursor) :
    cur.pass (c :: cs) = (cur.passChar c).pass cs := rfl

theorem pass_append (cs ds : List Char) (cur : Cursor) :
    cur.pass (cs ++ ds) = (cur.pass cs).pass ds := by
  induction cs generalizing cur with
  | nil => rfl
  | cons c cs ih => exact ih (cur.passChar c)

/-! ## Where a pass ends -/

theorem rest_pass (cs : List Char) (cur : Cursor) :
    (cur.pass cs).rest = cur.rest.drop cs.length := by
  induction cs generalizing cur with
  | nil => rfl
  | cons c cs ih => rw [pass_cons, ih, passChar, List.drop_drop, List.length_cons, Nat.add_comm]

/-- After a pass over what stands next, what follows it stands next. -/
theorem rest_pass_of_eq {cs tail : List Char} {cur : Cursor} (h : cur.rest = cs ++ tail) :
    (cur.pass cs).rest = tail := by
  rw [rest_pass, h, List.drop_left]

theorem length_rest_pass_le (cs : List Char) (cur : Cursor) :
    (cur.pass cs).rest.length ≤ cur.rest.length := by
  rw [rest_pass, List.length_drop]
  exact Nat.sub_le _ _

theorem length_rest_pass_lt {cs tail : List Char} {cur : Cursor} (h : cur.rest = cs ++ tail)
    (hne : cs ≠ []) : (cur.pass cs).rest.length < cur.rest.length := by
  rw [rest_pass_of_eq h, h, List.length_append]
  exact Nat.lt_add_of_pos_left (List.length_pos_iff.mpr hne)

theorem byteCount_foldl (cs : List Char) (n : Nat) :
    cs.foldl (fun n c => n + c.utf8Size) n = n + byteCount cs := by
  induction cs generalizing n with
  | nil => rfl
  | cons c cs ih => rw [byteCount, List.foldl_cons, List.foldl_cons, ih, ih (0 + c.utf8Size)]; omega

@[simp] theorem byteCount_nil : byteCount [] = 0 := rfl

theorem byteCount_cons (c : Char) (cs : List Char) :
    byteCount (c :: cs) = c.utf8Size + byteCount cs := by
  rw [byteCount, List.foldl_cons, byteCount_foldl]
  omega

theorem byteCount_append (cs ds : List Char) :
    byteCount (cs ++ ds) = byteCount cs + byteCount ds := by
  rw [byteCount, List.foldl_append, byteCount_foldl, byteCount_foldl]
  omega

theorem index_pass (cs : List Char) (cur : Cursor) :
    (cur.pass cs).index = cur.index + byteCount cs := by
  induction cs generalizing cur with
  | nil => rfl
  | cons c cs ih =>
    rw [pass_cons, ih, byteCount_cons, passChar, Nat.add_assoc]

theorem line_pass (cs : List Char) (cur : Cursor) :
    (cur.pass cs).line = cur.line + cs.countP isBreak := by
  induction cs generalizing cur with
  | nil => rfl
  | cons c cs ih =>
    rw [pass_cons, ih, passChar, List.countP_cons]
    cases isBreak c with
    | false => simp
    | true => simp; omega

theorem line_le_pass (cs : List Char) (cur : Cursor) : cur.line ≤ (cur.pass cs).line := by
  rw [line_pass]
  exact Nat.le_add_right _ _

/-- A pass over characters none of which is a break stays on the line. -/
theorem line_pass_of_noBreak {cs : List Char} (h : cs.all (!isBreak ·)) (cur : Cursor) :
    (cur.pass cs).line = cur.line := by
  have hcount : cs.countP isBreak = 0 := by
    rw [List.countP_eq_zero]
    intro c hc
    simpa using List.all_eq_true.mp h c hc
  rw [line_pass, hcount, Nat.add_zero]

theorem column_pass_of_noBreak {cs : List Char} (h : cs.all (!isBreak ·)) (cur : Cursor) :
    (cur.pass cs).column = cur.column + cs.length := by
  induction cs generalizing cur with
  | nil => rfl
  | cons c cs ih =>
    rw [List.all_cons, Bool.and_eq_true, Bool.not_eq_true'] at h
    rw [pass_cons, ih h.2, passChar, h.1, List.length_cons]
    simp
    omega

theorem column_le_pass_of_noBreak {cs : List Char} (h : cs.all (!isBreak ·)) (cur : Cursor) :
    cur.column ≤ (cur.pass cs).column := by
  rw [column_pass_of_noBreak h]
  exact Nat.le_add_right _ _

theorem column_pass_ne_zero {cs : List Char} (h : cs.all (!isBreak ·)) {cur : Cursor}
    (hcolumn : cur.column ≠ 0) : (cur.pass cs).column ≠ 0 :=
  Nat.ne_of_gt (Nat.lt_of_lt_of_le (Nat.pos_of_ne_zero hcolumn) (column_le_pass_of_noBreak h cur))

/-- After a break, columns are counted anew. -/
theorem column_pass_break {c : Char} (hc : isBreak c = true) {cs : List Char}
    (h : cs.all (!isBreak ·)) (cur : Cursor) : (cur.pass (c :: cs)).column = cs.length := by
  rw [pass_cons, column_pass_of_noBreak h, passChar, hc]
  simp

/-- Of several breaks the last one counts. -/
theorem column_pass_breaks {b : Char} (hb : isBreak b = true) {bs cs : List Char}
    (hbs : bs.all isBreak = true) (h : cs.all (!isBreak ·)) (cur : Cursor) :
    (cur.pass (b :: (bs ++ cs))).column = cs.length := by
  induction bs generalizing b cur with
  | nil => exact column_pass_break hb h cur
  | cons c bs ih =>
    rw [List.all_cons, Bool.and_eq_true] at hbs
    exact ih hbs.1 hbs.2 (cur.passChar b)

/-! ## Ways to move on -/

/-- Taking as many characters as there are in a text without breaks is a pass over it. -/
theorem skip_eq_pass {cs tail : List Char} {cur : Cursor} (h : cur.rest = cs ++ tail)
    (hcs : cs.all (!isBreak ·)) : cur.skip cs.length = cur.pass cs := by
  have hrest := rest_pass cs cur
  have hindex := index_pass cs cur
  have hline := line_pass_of_noBreak hcs cur
  have hcolumn := column_pass_of_noBreak hcs cur
  cases hpass : cur.pass cs
  rw [hpass] at hrest hindex hline hcolumn
  simp only at hrest hindex hline hcolumn
  subst hrest hindex hline hcolumn
  rw [skip, h, List.take_left]

theorem skip_one_eq_pass {c : Char} {tail : List Char} {cur : Cursor} (h : cur.rest = c :: tail)
    (hc : isBreak c = false) : cur.skip 1 = cur.pass [c] :=
  @skip_eq_pass [c] tail cur h (by simp [hc])

theorem skip_two_eq_pass {c d : Char} {tail : List Char} {cur : Cursor}
    (h : cur.rest = c :: d :: tail) (hc : isBreak c = false) (hd : isBreak d = false) :
    cur.skip 2 = cur.pass [c, d] :=
  @skip_eq_pass [c, d] tail cur h (by simp [hc, hd])

/-- The characters that a class lets through are passed over. -/
theorem takeWhile_eq_pass {p : Char → Bool} {cs tail : List Char} {cur : Cursor}
    (h : cur.rest = cs ++ tail) (hcs : cs.all p) (hbreak : cs.all (!isBreak ·))
    (htail : ∀ c ∈ tail.head?, p c = false) : cur.takeWhile p = (cs, cur.pass cs) := by
  have htake : cur.rest.takeWhile p = cs := by
    rw [h, List.takeWhile_append_of_pos (List.all_eq_true.mp hcs)]
    cases tail with
    | nil => simp
    | cons c tail => simp [htail c rfl]
  rw [takeWhile, htake, skip_eq_pass h hbreak]

theorem skipWhile_eq_pass {p : Char → Bool} {cs tail : List Char} {cur : Cursor}
    (h : cur.rest = cs ++ tail) (hcs : cs.all p) (hbreak : cs.all (!isBreak ·))
    (htail : ∀ c ∈ tail.head?, p c = false) : cur.skipWhile p = cur.pass cs := by
  rw [skipWhile, takeWhile_eq_pass h hcs hbreak htail]

/-- A break that stands for itself. -/
def isPlainBreak (c : Char) : Bool := c == '\n' || c.toNat == 0x2028 || c.toNat == 0x2029

theorem isBreak_of_isPlainBreak {c : Char} (h : isPlainBreak c = true) : isBreak c = true := by
  simp only [isPlainBreak, Bool.or_eq_true, beq_iff_eq] at h
  rcases h with (rfl | h) | h
  · rfl
  · simp [isBreak, h]
  · simp [isBreak, h]

theorem takeBreak_eq_pass {c : Char} {tail : List Char} {cur : Cursor} (h : cur.rest = c :: tail)
    (hc : isPlainBreak c = true) : cur.takeBreak = ([c], cur.pass [c]) := by
  have hbreak := isBreak_of_isPlainBreak hc
  have hr : c ≠ '\r' := by
    rintro rfl
    exact absurd hc (by decide)
  have hpass : cur.pass [c] = ⟨tail, cur.index + c.utf8Size, cur.line + 1, 0⟩ := by
    simp [pass, passChar, hbreak, h]
  simp only [isPlainBreak, Bool.or_eq_true, beq_iff_eq] at hc
  rw [takeBreak, h, hpass]
  rcases hc with (rfl | hc) | hc
  · simp [hbreak]
  · simp [hr, hbreak, hc]
  · simp [hr, hbreak, hc]

theorem skipBreak_eq_pass {c : Char} {tail : List Char} {cur : Cursor} (h : cur.rest = c :: tail)
    (hc : isPlainBreak c = true) : cur.skipBreak = cur.pass [c] := by
  rw [skipBreak, takeBreak_eq_pass h hc]

/-! ## What stands next -/

theorem at?_cons {p : Char → Bool} {c : Char} {tail : List Char} {cur : Cursor}
    (h : cur.rest = c :: tail) : cur.at? p = p c := by
  simp [at?, h]

theorem at?_eq_false {p : Char → Bool} {tail : List Char} {cur : Cursor} (h : cur.rest = tail)
    (hp : ∀ c ∈ tail.head?, p c = false) : cur.at? p = false := by
  cases tail with
  | nil => simp [at?, h]
  | cons c tail => exact (at?_cons h).trans (hp c rfl)

/-- Marks of documents stand at the beginning of a line only. -/
theorem atDocumentMark_of_column_ne {cur : Cursor} (h : cur.column ≠ 0) :
    cur.atDocumentMark = false := by
  simp [atDocumentMark, h]

end Cursor

end RouteFleet.Yaml
