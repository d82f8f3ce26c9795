import RouteFleet.Proofs.Yaml.Style
import RouteFleet.Yaml.Printer

/-! # Literal blocks

A text that may be a literal block is read back from it (`Scalar.block_literal`), with all the breaks
at its end and the spaces at the beginning of its first line. The scanner takes the break after the
last line along with the block, and the indentation of what follows.
-/

namespace RouteFleet.Yaml

open Text Style Value

/-! ## Ends of lines -/

namespace Value

theorem endLine_append (cs : List Char) {ds : List Char} (hne : ds ≠ []) :
    endLine (cs ++ ds) = endLine ds := by
  obtain ⟨c, hc⟩ := Option.ne_none_iff_exists'.mp (mt List.getLast?_eq_none_iff.mp hne)
  rw [endLine, endLine, List.getLast?_append, hc, Option.some_or]

theorem endLine_of_noBreak {cs : List Char} (h : cs.all (!isBreak ·) = true) :
    endLine cs = ['\n'] := by
  rw [endLine]
  cases hc : cs.getLast? with
  | none => rfl
  | some c =>
    have hbreak := List.all_eq_true.mp h c (List.mem_of_getLast? hc)
    simp only [Bool.not_eq_true'] at hbreak
    simp [hbreak]

theorem endLine_of_breaks {bs : List Char} (hne : bs ≠ []) (h : bs.all isBreak = true) :
    endLine bs = [] := by
  obtain ⟨c, hc⟩ := Option.ne_none_iff_exists'.mp (mt List.getLast?_eq_none_iff.mp hne)
  have hbreak := List.all_eq_true.mp h c (List.mem_of_getLast? hc)
  rw [endLine, hc]
  simp [hbreak]

end Value

namespace Scalar

/-! ## The mark of a block -/

/-- What becomes of the breaks at the end of a text, so that none is lost and none added. -/
def Chomp.ofText (cs : List Char) : Chomp :=
  match cs.reverse with
  | [] => .strip
  | [c] => if isBreak c then .keep else .strip
  | c :: d :: _ => if isBreak c then (if isBreak d then .keep else .clip) else .strip

/-- The sign for what becomes of the breaks at the end. -/
def Chomp.sign : Chomp → List Char
  | .strip => ['-']
  | .clip => []
  | .keep => ['+']

/-- Whether a text does not show its indentation by its first line. -/
def hidesIndent (cs : List Char) : Bool :=
  match cs with
  | c :: _ => c == ' ' || isBreak c
  | [] => false

theorem literalHints_eq (cs : List Char) : literalHints cs =
    (if hidesIndent cs then ['2'] else []) ++ (Chomp.ofText cs).sign := by
  unfold literalHints hidesIndent Chomp.ofText
  congr 1
  · cases cs <;> rfl
  · match cs.reverse with
    | [] => rfl
    | [c] => cases hc : isBreak c <;> simp [hc, Chomp.sign]
    | c :: d :: _ =>
      cases hc : isBreak c <;> cases hd : isBreak d <;> simp [hc, hd, Chomp.sign]

theorem takeChomp_none {c : Char} {tail : List Char} {cur : Cursor} (h : cur.rest = c :: tail)
    (hplus : c ≠ '+') (hminus : c ≠ '-') : takeChomp cur = (none, cur) := by
  rw [takeChomp, h]
  split
  · rename_i heq
    exact absurd (List.cons.inj heq).1 hplus
  · rename_i heq
    exact absurd (List.cons.inj heq).1 hminus
  · rfl

theorem takeChomp_sign {chomp : Chomp} {tail : List Char} {cur : Cursor}
    (h : cur.rest = chomp.sign ++ '\n' :: tail) :
    takeChomp cur = (if chomp = .clip then none else some chomp, cur.pass chomp.sign) := by
  cases chomp with
  | strip => simp [takeChomp, h, Chomp.sign, Cursor.skip_one_eq_pass h rfl]
  | clip => exact takeChomp_none h (by decide) (by decide)
  | keep => simp [takeChomp, h, Chomp.sign, Cursor.skip_one_eq_pass h rfl]

theorem takeIncrement_two {tail : List Char} {cur : Cursor} (h : cur.rest = '2' :: tail) :
    takeIncrement cur = some (2, cur.pass ['2']) := by
  rw [takeIncrement, h, ← Cursor.skip_one_eq_pass h rfl]
  rfl

theorem takeIncrement_feed {tail : List Char} {cur : Cursor} (h : cur.rest = '\n' :: tail) :
    takeIncrement cur = some (0, cur) := by
  rw [takeIncrement, h]
  rfl

theorem takeHeader_sign {chomp : Chomp} {tail : List Char} {cur : Cursor}
    (h : cur.rest = chomp.sign ++ '\n' :: tail) :
    takeHeader cur = some (chomp, 0, cur.pass chomp.sign) := by
  have hincrement := takeIncrement_feed (Cursor.rest_pass_of_eq h)
  rw [takeHeader, takeChomp_sign h]
  cases chomp <;> simp [hincrement]

theorem takeHeader_two_sign {chomp : Chomp} {tail : List Char} {cur : Cursor}
    (h : cur.rest = '2' :: (chomp.sign ++ '\n' :: tail)) :
    takeHeader cur = some (chomp, 2, cur.pass ('2' :: chomp.sign)) := by
  have hchomp := takeChomp_sign (@Cursor.rest_pass_of_eq ['2'] _ _ h)
  have hpass : (cur.pass ['2']).pass chomp.sign = cur.pass ('2' :: chomp.sign) :=
    (Cursor.pass_append ['2'] _ _).symm
  rw [takeHeader, takeChomp_none h (by decide) (by decide)]
  cases chomp <;> simp [takeIncrement_two h, hchomp, hpass]

/-- The hints after a block's mark are read as what they were written for. -/
theorem takeHeader_literalHints (cs : List Char) {tail : List Char} {cur : Cursor}
    (h : cur.rest = literalHints cs ++ '\n' :: tail) : takeHeader cur =
      some (Chomp.ofText cs, if hidesIndent cs then 2 else 0, cur.pass (literalHints cs)) := by
  rw [literalHints_eq] at h ⊢
  cases hhides : hidesIndent cs with
  | true => exact takeHeader_two_sign (by simpa [hhides] using h)
  | false => exact takeHeader_sign (by simpa [hhides] using h)

/-! ## Empty lines -/

theorem takeWhile_take_spaces {n room : Nat} {tail : List Char} (hn : n ≤ room)
    (htail : n < room → tail.head? ≠ some ' ') :
    ((spaces n ++ tail).take room).takeWhile (· == ' ') = spaces n := by
  induction n generalizing room with
  | zero =>
    cases room with
    | zero => rfl
    | succ room =>
      cases tail with
      | nil => rfl
      | cons c tail =>
        have hc : c ≠ ' ' := fun hc => htail (Nat.succ_pos room) (hc ▸ rfl)
        simp [hc]
  | succ n ih =>
    obtain ⟨room, rfl⟩ : ∃ m, room = m + 1 := ⟨room - 1, by omega⟩
    rw [spaces_succ, List.cons_append, List.take_succ_cons, List.takeWhile_cons,
      ih (by omega) (fun h => htail (by omega))]
    rfl

/-- The indentation of a line is passed over as far as there is room for it. -/
theorem skip_indentation {n room : Nat} {tail : List Char} (hn : n ≤ room)
    (htail : n < room → tail.head? ≠ some ' ') {cur : Cursor} (h : cur.rest = spaces n ++ tail) :
    cur.skip ((cur.rest.take room).takeWhile (· == ' ')).length = cur.pass (spaces n) := by
  rw [h, takeWhile_take_spaces hn htail, Cursor.skip_eq_pass h (noBreak_spaces n)]

theorem beq_tab_of_not_isBlank {c : Char} (h : isBlank c = false) : (c == '\t') = false := by
  rw [isBlank, Bool.or_eq_false_iff] at h
  exact h.2

/-- What the scanner makes of a line that is not empty and indented by `n`. -/
theorem takeEmptyLines_spaces {indent n : Nat} (hindent : indent ≠ 0) (hn : n ≤ indent)
    {tail : List Char} (hbreak : ∀ c ∈ tail.head?, isBreak c = false)
    (hblank : n < indent → ∀ c ∈ tail.head?, isBlank c = false) (fuel widest : Nat)
    (breaks : List Char) {cur : Cursor} (h : cur.rest = spaces n ++ tail) (hcolumn : cur.column = 0) :
    takeEmptyLines indent (fuel + 1) breaks widest cur =
      some (breaks, max widest n, cur.pass (spaces n)) := by
  have hroom : n ≤ indent - cur.column := by omega
  have hspace : n < indent - cur.column → tail.head? ≠ some ' ' := by
    intro hlt hhead
    exact absurd (hblank (by omega) ' ' hhead) (by decide)
  have hskip := skip_indentation hroom hspace h
  have hnext : (cur.pass (spaces n)).rest = tail := Cursor.rest_pass_of_eq h
  have hafter : (cur.pass (spaces n)).column = n := by
    rw [Cursor.column_pass_of_noBreak (noBreak_spaces n), length_spaces, hcolumn, Nat.zero_add]
  have htab : (decide (n < indent) && (cur.pass (spaces n)).at? (· == '\t')) = false := by
    rw [Bool.and_eq_false_iff, decide_eq_false_iff_not]
    by_cases hlt : n < indent
    · exact .inr (Cursor.at?_eq_false hnext fun c hc => beq_tab_of_not_isBlank (hblank hlt c hc))
    · exact .inl hlt
  have hat : (cur.pass (spaces n)).at? isBreak = false := Cursor.at?_eq_false hnext hbreak
  rw [takeEmptyLines]
  simp only [hskip, hafter, hindent, decide_false, Bool.false_or, htab, hat,
    Bool.false_eq_true, if_false]

/-- What the scanner makes of an empty line. -/
theorem takeEmptyLines_break {indent : Nat} (hindent : indent ≠ 0) {b : Char}
    (hb : Cursor.isPlainBreak b = true) {tail : List Char} (fuel widest : Nat) (breaks : List Char)
    {cur : Cursor} (h : cur.rest = b :: tail) :
    takeEmptyLines indent (fuel + 1) breaks widest cur =
      takeEmptyLines indent fuel (breaks ++ [b]) (max widest cur.column) (cur.pass [b]) := by
  have hbreak := Cursor.isBreak_of_isPlainBreak hb
  have hspace : b ≠ ' ' := by
    rintro rfl
    exact absurd hbreak (by decide)
  have htab : b ≠ '\t' := by
    rintro rfl
    exact absurd hbreak (by decide)
  have hskip := @skip_indentation 0 (indent - cur.column) (b :: tail) (Nat.zero_le _)
    (fun _ hhead => hspace (Option.some.inj hhead)) cur h
  rw [takeEmptyLines]
  simp only [if_neg hindent, hskip, spaces_zero, Cursor.pass_nil, Cursor.at?_cons h, hbreak,
    beq_eq_false_iff_ne.mpr htab, Bool.and_false, Bool.false_eq_true, if_false, if_true,
    Cursor.takeBreak_eq_pass h hb]

/-- What the scanner makes of empty lines, and of a line after them that is indented by `n`. -/
theorem takeEmptyLines_breaks {indent n : Nat} (hindent : indent ≠ 0) (hn : n ≤ indent)
    {bs tail : List Char} (hbs : bs.all Cursor.isPlainBreak = true)
    (hbreak : ∀ c ∈ tail.head?, isBreak c = false)
    (hblank : n < indent → ∀ c ∈ tail.head?, isBlank c = false) {fuel widest : Nat}
    {breaks : List Char} {cur : Cursor} (h : cur.rest = bs ++ (spaces n ++ tail))
    (hcolumn : cur.column = 0) (hfuel : bs.length < fuel) :
    ∃ w, takeEmptyLines indent fuel breaks widest cur =
      some (breaks ++ bs, w, cur.pass (bs ++ spaces n)) := by
  induction bs generalizing fuel widest breaks cur with
  | nil =>
    obtain ⟨fuel, rfl⟩ : ∃ m, fuel = m + 1 := ⟨fuel - 1, by simp at hfuel; omega⟩
    refine ⟨max widest n, ?_⟩
    rw [takeEmptyLines_spaces hindent hn hbreak hblank fuel widest breaks h hcolumn]
    simp
  | cons b bs ih =>
    obtain ⟨fuel, rfl⟩ : ∃ m, fuel = m + 1 := ⟨fuel - 1, by simp at hfuel; omega⟩
    rw [List.all_cons, Bool.and_eq_true] at hbs
    obtain ⟨w, hw⟩ := @ih hbs.2 fuel (max widest cur.column) (breaks ++ [b]) (cur.pass [b])
      (Cursor.rest_pass_of_eq h)
      (Cursor.column_pass_break (Cursor.isBreak_of_isPlainBreak hbs.1) rfl cur) (by simpa using hfuel)
    refine ⟨w, ?_⟩
    rw [takeEmptyLines_break hindent hbs.1 fuel widest breaks h, hw, ← Cursor.pass_append]
    simp

/-- The first line of a block that shows its indentation. -/
theorem takeEmptyLines_first {n : Nat} {tail : List Char} {fuel : Nat} {cur : Cursor}
    (h : cur.rest = spaces n ++ tail) (htail : EndsGap tail) (hcolumn : cur.column = 0) :
    takeEmptyLines 0 (fuel + 1) [] 0 cur = some ([], n, cur.pass (spaces n)) := by
  have hspace : n < cur.rest.length → tail.head? ≠ some ' ' := by
    intro _ hhead
    exact absurd (htail ' ' hhead).1 (by decide)
  have hskip := skip_indentation (by rw [h]; simp) hspace h
  have hnext : (cur.pass (spaces n)).rest = tail := Cursor.rest_pass_of_eq h
  have hafter : (cur.pass (spaces n)).column = n := by
    rw [Cursor.column_pass_of_noBreak (noBreak_spaces n), length_spaces, hcolumn, Nat.zero_add]
  have hat : (cur.pass (spaces n)).at? (· == '\t') = false ∧
      (cur.pass (spaces n)).at? isBreak = false :=
    ⟨Cursor.at?_eq_false hnext fun c hc => beq_tab_of_not_isBlank (htail c hc).1,
      Cursor.at?_eq_false hnext fun c hc => (htail c hc).2⟩
  rw [takeEmptyLines]
  simp only [if_true, hskip, hafter, hat.1, hat.2, Bool.and_false, Bool.false_eq_true, if_false]
  simp

/-! ## What stands at the end of a text -/

theorem Chomp.ofText_concat (cs : List Char) (c : Char) : Chomp.ofText (cs ++ [c]) =
    if isBreak c then (if cs.getLast?.all isBreak then .keep else .clip) else .strip := by
  rw [Chomp.ofText, List.reverse_append, List.reverse_singleton, List.singleton_append,
    ← List.head?_reverse]
  cases cs.reverse with
  | nil => rfl
  | cons d ds => rfl

/-- Lines before the last one that is not empty make no difference. -/
theorem Chomp.ofText_append (pre : List Char) {es : List Char} (hne : es ≠ [])
    (hhead : ∀ c ∈ es.head?, isBreak c = false) : Chomp.ofText (pre ++ es) = Chomp.ofText es := by
  obtain ⟨ds, c, rfl⟩ := (List.eq_nil_or_concat es).resolve_left hne
  rw [List.concat_eq_append] at hhead ⊢
  rw [← List.append_assoc, Chomp.ofText_concat, Chomp.ofText_concat]
  cases hc : isBreak c with
  | false => rfl
  | true =>
    cases ds with
    | nil => exact absurd hc (by simp [hhead c rfl])
    | cons d ds => rw [List.getLast?_append, List.getLast?_cons, Option.some_or]

theorem Chomp.ofText_line {line : List Char} (h : line.all (!isBreak ·) = true) :
    Chomp.ofText line = .strip := by
  rcases List.eq_nil_or_concat line with rfl | ⟨ds, c, rfl⟩
  · rfl
  · have hc : isBreak c = false := by simpa using List.all_eq_true.mp h c (by simp)
    rw [List.concat_eq_append, Chomp.ofText_concat, hc]
    rfl

theorem Chomp.ofText_breaks {bs : List Char} (hne : bs ≠ []) (h : bs.all isBreak = true) :
    Chomp.ofText bs = .keep := by
  obtain ⟨ds, c, rfl⟩ := (List.eq_nil_or_concat bs).resolve_left hne
  rw [List.concat_eq_append] at h ⊢
  rw [List.all_append, Bool.and_eq_true, List.all_cons, List.all_nil, Bool.and_true] at h
  have hlast : ds.getLast?.all isBreak = true := by
    rw [Option.all_eq_true_iff_get]
    intro hsome
    exact List.all_eq_true.mp h.1 _ (List.mem_of_getLast? (Option.some_get hsome).symm)
  rw [Chomp.ofText_concat, h.2, hlast]
  rfl

theorem Chomp.ofText_line_break {line : List Char} {b : Char} {bs : List Char} (hne : line ≠ [])
    (hline : line.all (!isBreak ·) = true) (hb : isBreak b = true) (hbs : bs.all isBreak = true) :
    Chomp.ofText (line ++ b :: bs) = if bs = [] then .clip else .keep := by
  rcases List.eq_nil_or_concat bs with rfl | ⟨ds, c, rfl⟩
  · obtain ⟨es, d, rfl⟩ := (List.eq_nil_or_concat line).resolve_left hne
    have hd : isBreak d = false := by simpa using List.all_eq_true.mp hline d (by simp)
    rw [Chomp.ofText_concat, hb]
    simp [hd]
  · rw [List.concat_eq_append] at hbs ⊢
    rw [List.all_append, Bool.and_eq_true, List.all_cons, List.all_nil, Bool.and_true] at hbs
    rw [← List.cons_append, ← List.append_assoc, Chomp.ofText_concat, hbs.2]
    have hlast : (line ++ b :: ds).getLast?.all isBreak = true := by
      rw [List.getLast?_append, List.getLast?_cons, Option.some_or, Option.all_some]
      rcases List.eq_nil_or_concat ds with rfl | ⟨es, d, rfl⟩
      · exact hb
      · simpa using List.all_eq_true.mp hbs.1 d (by simp)
    simp only [hlast, if_true]
    simp

/-! ## Lines -/

theorem literalBody_line {line : List Char} (h : line.all (!isBreak ·) = true) (indent : Nat)
    (es : List Char) : literalBody indent false (line ++ es) =
      line ++ literalBody indent false es := by
  induction line with
  | nil => rfl
  | cons c line ih =>
    rw [List.all_cons, Bool.and_eq_true, Bool.not_eq_true'] at h
    rw [List.cons_append, literalBody, if_neg (by rw [h.1]; exact Bool.false_ne_true), ih h.2]
    rfl

theorem literalBody_breaks (indent : Nat) {bs : List Char} (h : bs.all isBreak = true)
    (es : List Char) : literalBody indent true (bs ++ es) =
      bs ++ literalBody indent true es := by
  induction bs with
  | nil => rfl
  | cons b bs ih =>
    rw [List.all_cons, Bool.and_eq_true] at h
    rw [List.cons_append, literalBody, if_pos h.1, ih h.2]
    rfl

theorem literalBody_break (indent : Nat) {b : Char} (hb : isBreak b = true) (es : List Char) :
    literalBody indent false (b :: es) = b :: literalBody indent true es := by
  rw [literalBody, if_pos hb]

/-- A line that is not empty is indented. -/
theorem literalBody_fresh (indent : Nat) {es : List Char} (hne : es ≠ [])
    (h : ∀ c ∈ es.head?, isBreak c = false) : literalBody indent true es =
      spaces indent ++ literalBody indent false es := by
  cases es with
  | nil => exact absurd rfl hne
  | cons c es =>
    have hc : isBreak c = false := h c rfl
    simp [literalBody, hc]

theorem length_le_length_literalBody (indent : Nat) (fresh : Bool) (cs : List Char) :
    cs.length ≤ (literalBody indent fresh cs).length := by
  induction cs generalizing fresh with
  | nil => exact Nat.zero_le _
  | cons c cs ih =>
    have htrue := ih true
    have hfalse := ih false
    rw [literalBody]
    split
    · exact Nat.succ_le_succ htrue
    · rw [List.length_append, List.length_cons, List.length_cons]
      omega

/-- A text and its lines end alike. -/
theorem getLast?_literalBody (indent : Nat) (fresh : Bool) (cs : List Char) :
    (literalBody indent fresh cs).getLast? = cs.getLast? := by
  induction cs generalizing fresh with
  | nil => rfl
  | cons c cs ih =>
    rw [literalBody, List.getLast?_cons]
    split
    · rw [List.getLast?_cons, ih]
    · rw [List.getLast?_append, List.getLast?_cons, ih, Option.some_or]

theorem head?_literalBody (indent : Nat) {es : List Char} (hne : es ≠ [])
    (h : ∀ c ∈ es.head?, isBreak c = false) (tail : List Char) :
    (literalBody indent false es ++ tail).head? = es.head? := by
  cases es with
  | nil => exact absurd rfl hne
  | cons c es =>
    have hc : isBreak c = false := h c rfl
    simp [literalBody, hc]

/-- A line of a block with the breaks after it, and the indentation of what follows them. -/
theorem takeLines_line {indent n : Nat} (hindent : indent ≠ 0) (hn : n ≤ indent)
    {line : List Char} {b : Char} {bs tail : List Char} (hline : line.all (!isBreak ·) = true)
    (hb : Cursor.isPlainBreak b = true) (hbs : bs.all Cursor.isPlainBreak = true)
    (hbreak : ∀ c ∈ tail.head?, isBreak c = false)
    (hblank : n < indent → ∀ c ∈ tail.head?, isBlank c = false) {fuel : Nat} {acc : List Char}
    {gap : LineGap} {cur : Cursor} (h : cur.rest = line ++ b :: (bs ++ (spaces n ++ tail)))
    (hcolumn : cur.column = indent) : ∃ blank, takeLines true indent (fuel + 1) acc gap cur =
      takeLines true indent fuel (line.reverse ++ (gap.first ++ gap.more).reverse ++ acc)
        ⟨[b], bs, blank⟩ (cur.pass (line ++ b :: (bs ++ spaces n))) := by
  have hend : cur.atEnd = false := by simp [Cursor.atEnd, h]
  have htake : cur.takeWhile (fun c => !isBreak c) = (line, cur.pass line) := by
    refine Cursor.takeWhile_eq_pass h hline hline ?_
    intro c hc
    obtain rfl : b = c := by simpa using hc
    simpa using Cursor.isBreak_of_isPlainBreak hb
  have hafter : (cur.pass line).rest = b :: (bs ++ (spaces n ++ tail)) := Cursor.rest_pass_of_eq h
  have hnext : ((cur.pass line).pass [b]).rest = bs ++ (spaces n ++ tail) :=
    Cursor.rest_pass_of_eq hafter
  have hzero : ((cur.pass line).pass [b]).column = 0 :=
    Cursor.column_pass_break (Cursor.isBreak_of_isPlainBreak hb) rfl _
  obtain ⟨w, hw⟩ := @takeEmptyLines_breaks indent n hindent hn bs tail hbs hbreak hblank
    (((cur.pass line).pass [b]).rest.length + 1) 0 [] ((cur.pass line).pass [b]) hnext hzero
    (by rw [hnext]; simp only [List.length_append]; omega)
  refine ⟨cur.at? isBlank, ?_⟩
  have hcond : (cur.column == indent && !cur.atEnd) = true := by rw [hcolumn, hend]; simp
  rw [takeLines, if_pos hcond, htake]
  simp only [Cursor.takeBreak_eq_pass hafter hb, hw, Option.bind_eq_bind, Option.bind_some]
  have htext : gap.text true (cur.at? isBlank) = gap.first ++ gap.more := by simp [LineGap.text]
  rw [htext, ← Cursor.pass_append, ← Cursor.pass_append]
  simp

theorem takeLines_end {indent fuel : Nat} {acc : List Char} {gap : LineGap} {cur : Cursor}
    (h : cur.column ≠ indent) :
    takeLines true indent (fuel + 1) acc gap cur = some (acc.reverse, gap, cur) := by
  rw [takeLines, if_neg (by simp [h])]

theorem isBreak_of_all_isPlainBreak {bs : List Char} (h : bs.all Cursor.isPlainBreak = true) :
    bs.all isBreak = true :=
  List.all_eq_true.mpr fun b hb => Cursor.isBreak_of_isPlainBreak (List.all_eq_true.mp h b hb)

/-- The last line of a block, after which nothing is indented as far. -/
theorem takeLines_lastLine {indent k : Nat} (hk : k < indent) {line : List Char} {b : Char}
    {bs tail : List Char} (hline : line.all (!isBreak ·) = true) (hb : Cursor.isPlainBreak b = true)
    (hbs : bs.all Cursor.isPlainBreak = true) (htail : EndsGap tail) {fuel : Nat} {acc : List Char}
    {gap : LineGap} {cur : Cursor} (h : cur.rest = line ++ b :: (bs ++ (spaces k ++ tail)))
    (hcolumn : cur.column = indent) : ∃ blank, takeLines true indent (fuel + 2) acc gap cur =
      some (acc.reverse ++ gap.first ++ gap.more ++ line, ⟨[b], bs, blank⟩,
        cur.pass (line ++ b :: (bs ++ spaces k))) := by
  obtain ⟨blank, hstep⟩ := @takeLines_line indent k (by omega) (Nat.le_of_lt hk) line b bs tail hline
    hb hbs (fun c hc => (htail c hc).2) (fun _ c hc => (htail c hc).1) (fuel + 1) acc gap cur h hcolumn
  have hafter : (cur.pass (line ++ b :: (bs ++ spaces k))).column ≠ indent := by
    rw [Cursor.pass_append, Cursor.column_pass_breaks (Cursor.isBreak_of_isPlainBreak hb)
      (isBreak_of_all_isPlainBreak hbs) (noBreak_spaces k), length_spaces]
    omega
  refine ⟨blank, ?_⟩
  rw [hstep, takeLines_end hafter]
  simp

/-- From a line of the text on, the lines up to the end of the block and the indentation after it are
taken, and what they are read as, together with the breaks at the end that are kept, is the text. -/
def ReadsLines (indent k fuel : Nat) (acc : List Char) (gap : LineGap) (cur : Cursor)
    (ds : List Char) : Prop :=
  ∃ text g, takeLines true indent fuel acc gap cur =
      some (text, g, cur.pass (literalBody indent false ds ++ (endLine ds ++ spaces k))) ∧
    text ++ g.tail (Chomp.ofText ds) = acc.reverse ++ gap.first ++ gap.more ++ ds

section ReadsLines

variable {indent k : Nat} {line tail : List Char} {fuel : Nat} {acc : List Char} {gap : LineGap}
  {cur : Cursor}

/-- The last line, which the break after the scalar ends. -/
theorem readsLines_unended (hk : k < indent) (hline : line.all (!isBreak ·) = true)
    (htail : EndsGap tail)
    (h : cur.rest = literalBody indent false line ++ (endLine line ++ (spaces k ++ tail)))
    (hcolumn : cur.column = indent) : ReadsLines indent k (fuel + 2) acc gap cur line := by
  have hbody : literalBody indent false line = line := by
    simpa [literalBody] using literalBody_line hline indent []
  rw [hbody, endLine_of_noBreak hline] at h
  obtain ⟨blank, htake⟩ := @takeLines_lastLine indent k hk line '\n' [] tail hline rfl rfl htail
    fuel acc gap cur h hcolumn
  refine ⟨acc.reverse ++ gap.first ++ gap.more ++ line, ⟨['\n'], [], blank⟩, ?_, ?_⟩
  · rw [hbody, endLine_of_noBreak hline]
    exact htake
  · rw [Chomp.ofText_line hline]
    simp [LineGap.tail]

variable {b : Char} {bs : List Char}

/-- The last line, which the text itself ends. -/
theorem readsLines_ended (hk : k < indent) (hne : line ≠ [])
    (hline : line.all (!isBreak ·) = true) (hb : Cursor.isPlainBreak b = true)
    (hbs : bs.all Cursor.isPlainBreak = true) (htail : EndsGap tail)
    (h : cur.rest = literalBody indent false (line ++ b :: bs) ++
      (endLine (line ++ b :: bs) ++ (spaces k ++ tail)))
    (hcolumn : cur.column = indent) :
    ReadsLines indent k (fuel + 2) acc gap cur (line ++ b :: bs) := by
  have hbreak := Cursor.isBreak_of_isPlainBreak hb
  have hbreaks := isBreak_of_all_isPlainBreak hbs
  have hbody : literalBody indent false (line ++ b :: bs) = line ++ b :: bs := by
    rw [literalBody_line hline, literalBody_break indent hbreak]
    simpa [literalBody] using literalBody_breaks indent hbreaks []
  have hend : endLine (line ++ b :: bs) = [] := by
    rw [endLine_append _ (List.cons_ne_nil _ _)]
    exact endLine_of_breaks (List.cons_ne_nil _ _) (by rw [List.all_cons, hbreak, hbreaks]; rfl)
  obtain ⟨blank, htake⟩ := @takeLines_lastLine indent k hk line b bs tail hline hb hbs htail
    fuel acc gap cur (by simpa [hbody, hend] using h) hcolumn
  refine ⟨acc.reverse ++ gap.first ++ gap.more ++ line, ⟨[b], bs, blank⟩, ?_, ?_⟩
  · rw [hbody, hend, htake]
    simp
  · rw [Chomp.ofText_line_break hne hline hbreak hbreaks]
    by_cases hbsne : bs = [] <;> simp [hbsne, LineGap.tail]

/-- A line after which another one follows. -/
theorem readsLines_append {fs : List Char} (hindent : indent ≠ 0)
    (hline : line.all (!isBreak ·) = true) (hb : Cursor.isPlainBreak b = true)
    (hbs : bs.all Cursor.isPlainBreak = true) (hne : fs ≠ [])
    (hfs : ∀ c ∈ fs.head?, isBreak c = false)
    (h : cur.rest = literalBody indent false (line ++ b :: (bs ++ fs)) ++
      (endLine (line ++ b :: (bs ++ fs)) ++ (spaces k ++ tail)))
    (hcolumn : cur.column = indent)
    (hmore : ∀ {acc : List Char} {gap : LineGap} {cur : Cursor},
      cur.rest = literalBody indent false fs ++ (endLine fs ++ (spaces k ++ tail)) →
      cur.column = indent → ReadsLines indent k fuel acc gap cur fs) :
    ReadsLines indent k (fuel + 1) acc gap cur (line ++ b :: (bs ++ fs)) := by
  have hbreak := Cursor.isBreak_of_isPlainBreak hb
  have hbreaks := isBreak_of_all_isPlainBreak hbs
  have hsplit : line ++ b :: (bs ++ fs) = (line ++ b :: bs) ++ fs := by simp
  have hbody : literalBody indent false (line ++ b :: (bs ++ fs)) =
      line ++ b :: (bs ++ (spaces indent ++ literalBody indent false fs)) := by
    rw [literalBody_line hline, literalBody_break indent hbreak, literalBody_breaks indent hbreaks,
      literalBody_fresh indent hne hfs]
  have hend : endLine (line ++ b :: (bs ++ fs)) = endLine fs := by
    rw [hsplit, endLine_append _ hne]
  have hrest : cur.rest = line ++ b :: (bs ++ (spaces indent ++
      (literalBody indent false fs ++ (endLine fs ++ (spaces k ++ tail))))) := by
    rw [h, hbody, hend]
    simp
  have hnextBreak : ∀ c ∈ (literalBody indent false fs ++
      (endLine fs ++ (spaces k ++ tail))).head?, isBreak c = false := by
    rw [head?_literalBody indent hne hfs]
    exact hfs
  obtain ⟨blank, hstep⟩ := @takeLines_line indent indent hindent (Nat.le_refl _) line b bs _ hline
    hb hbs hnextBreak (fun hlt => absurd hlt (Nat.lt_irrefl _)) fuel acc gap cur hrest hcolumn
  have hnext : (cur.pass (line ++ b :: (bs ++ spaces indent))).rest =
      literalBody indent false fs ++ (endLine fs ++ (spaces k ++ tail)) :=
    Cursor.rest_pass_of_eq (by rw [hrest]; simp)
  have hafter : (cur.pass (line ++ b :: (bs ++ spaces indent))).column = indent := by
    rw [Cursor.pass_append, Cursor.column_pass_breaks hbreak hbreaks (noBreak_spaces _),
      length_spaces]
  obtain ⟨text, g, htake, htext⟩ := hmore hnext hafter
  refine ⟨text, g, ?_, ?_⟩
  · rw [hstep, htake, ← Cursor.pass_append, hbody, hend]
    simp
  · rw [hsplit, Chomp.ofText_append _ hne hfs, htext]
    simp

end ReadsLines

/-- The lines of a text that begins a line with something other than a break, up to its end. -/
theorem readsLines_literalBody {indent k : Nat} (hk : k < indent) (ds : List Char) (hne : ds ≠ [])
    (hhead : ∀ c ∈ ds.head?, isBreak c = false)
    (hplain : ∀ c ∈ ds, isBreak c = true → Cursor.isPlainBreak c = true) {tail : List Char}
    (htail : EndsGap tail) {fuel : Nat} {acc : List Char} {gap : LineGap} {cur : Cursor}
    (h : cur.rest = literalBody indent false ds ++ (endLine ds ++ (spaces k ++ tail)))
    (hcolumn : cur.column = indent) (hfuel : ds.length < fuel) :
    ReadsLines indent k fuel acc gap cur ds := by
  induction hn : ds.length using Nat.strongRecOn generalizing ds acc gap fuel cur with
  | ind n ih =>
    subst hn
    obtain ⟨line, es, rfl, hline, hes⟩ := exists_run_append (!isBreak ·) ds
    have hlinene : line ≠ [] := by
      rintro rfl
      cases es with
      | nil => exact hne rfl
      | cons c es => simpa [hhead c rfl] using hes c rfl
    have hlinepos := List.length_pos_iff.mpr hlinene
    cases es with
    | nil =>
      rw [List.append_nil] at *
      obtain ⟨fuel, rfl⟩ : ∃ m, fuel = m + 2 := ⟨fuel - 2, by omega⟩
      exact readsLines_unended hk hline htail h hcolumn
    | cons b es =>
      have hb := hplain b (by simp) (by simpa using hes b rfl)
      obtain ⟨bs, fs, rfl, hbs, hfs⟩ := exists_run_append isBreak es
      replace hbs : bs.all Cursor.isPlainBreak = true := List.all_eq_true.mpr fun c hc =>
        hplain c (by simp [hc]) (List.all_eq_true.mp hbs c hc)
      have hlength : (line ++ b :: (bs ++ fs)).length = line.length + 1 + bs.length + fs.length := by
        simp
        omega
      by_cases hfsne : fs = []
      · subst hfsne
        rw [List.append_nil] at *
        obtain ⟨fuel, rfl⟩ : ∃ m, fuel = m + 2 := ⟨fuel - 2, by omega⟩
        exact readsLines_ended hk hlinene hline hb hbs htail h hcolumn
      · obtain ⟨fuel, rfl⟩ : ∃ m, fuel = m + 1 := ⟨fuel - 1, by omega⟩
        exact readsLines_append (by omega) hline hb hbs hfsne hfs h hcolumn fun hrest hcolumn =>
          ih fs.length (by omega) fs hfsne hfs (fun c hc => hplain c (by simp [hc])) hrest hcolumn
            (by omega) rfl

/-! ## The whole block -/

theorem skipComment_feed {tail : List Char} {cur : Cursor} (h : cur.rest = '\n' :: tail) :
    cur.skipComment = cur := by
  have hskip : cur.skipWhile isBlank = cur :=
    @Cursor.skipWhile_eq_pass isBlank [] ('\n' :: tail) cur h rfl rfl (by
      intro c hc
      obtain rfl : '\n' = c := by simpa using hc
      rfl)
  rw [Cursor.skipComment, hskip]
  simp [Cursor.at?_cons h]

/-- The indentation that a block's mark gives inside a collection that is indented by `n`: none if
the first line shows it. -/
def givenIndent (n : Nat) (cs : List Char) : Nat := if hidesIndent cs then n + 2 else 0

theorem all_isPlainBreak_of_printable {bs : List Char} (h : ∀ c ∈ bs, isPrintable c = true)
    (hbs : bs.all isBreak = true) : bs.all Cursor.isPlainBreak = true :=
  List.all_eq_true.mpr fun c hc => isPlainBreak_of_isBreak (h c hc) (List.all_eq_true.mp hbs c hc)

/-- The empty lines at the beginning of a block and the indentation of the first line that is not
empty. -/
theorem takeEmptyLines_indent {n : Nat} {bs ds tail : List Char}
    (hprintable : ∀ c ∈ bs ++ ds, isPrintable c = true) (hbs : bs.all isBreak = true)
    (hne : ds ≠ []) (hds : ∀ c ∈ ds.head?, isBreak c = false) (htail : tail.head? = ds.head?)
    {cur : Cursor} (h : cur.rest = bs ++ (spaces (n + 2) ++ tail)) (hcolumn : cur.column = 0) :
    ∃ w, takeEmptyLines (givenIndent n (bs ++ ds)) (cur.rest.length + 1) [] 0 cur =
        some (bs, w, cur.pass (bs ++ spaces (n + 2))) ∧
      (if givenIndent n (bs ++ ds) = 0 then detectIndent n w else givenIndent n (bs ++ ds)) =
        n + 2 := by
  have hplain : bs.all Cursor.isPlainBreak = true :=
    all_isPlainBreak_of_printable (fun c hc => hprintable c (List.mem_append_left _ hc)) hbs
  have hhead : ∀ c ∈ tail.head?, isBreak c = false := htail ▸ hds
  cases hhides : hidesIndent (bs ++ ds) with
  | true =>
    obtain ⟨w, hw⟩ := @takeEmptyLines_breaks (n + 2) (n + 2) (Nat.succ_ne_zero _) (Nat.le_refl _) bs
      tail hplain hhead (fun hlt => absurd hlt (Nat.lt_irrefl _)) (cur.rest.length + 1) 0 []
      cur h hcolumn (by rw [h]; simp only [List.length_append]; omega)
    refine ⟨w, ?_, ?_⟩
    · rw [givenIndent, hhides, if_pos rfl, hw]
      rfl
    · simp [givenIndent, hhides]
  | false =>
    cases bs with
    | cons b bs =>
      rw [List.all_cons, Bool.and_eq_true] at hbs
      simp [hidesIndent, hbs.1] at hhides
    | nil =>
      have hgap : EndsGap tail := by
        intro d hd
        rw [htail] at hd
        refine ⟨Bool.eq_false_iff.mpr fun hb => ?_, hds d hd⟩
        obtain ⟨e, ds, rfl⟩ := List.exists_cons_of_ne_nil hne
        obtain rfl : e = d := by simpa using hd
        obtain rfl := eq_space_of_isBlank (hprintable e (by simp)) hb
        exact absurd hhides (by simp [hidesIndent])
      refine ⟨n + 2, ?_, ?_⟩
      · rw [givenIndent, hhides]
        exact takeEmptyLines_first h hgap hcolumn
      · simp only [givenIndent, hhides, detectIndent]
        simp

/-- The lines of a block after its first one are taken with the indentation after them, and they are
read as the text. -/
def ReadsBlock (n k : Nat) (cs : List Char) (cur : Cursor) : Prop :=
  ∃ breaks w next text g,
    takeEmptyLines (givenIndent n cs) (cur.rest.length + 1) [] 0 cur = some (breaks, w, next) ∧
    takeLines true (if givenIndent n cs = 0 then detectIndent n w else givenIndent n cs)
      (next.rest.length + 1) [] { more := breaks } next =
        some (text, g, cur.pass (literalBody (n + 2) true cs ++ (endLine cs ++ spaces k))) ∧
    text ++ g.tail (Chomp.ofText cs) = cs

section ReadsBlock

variable {n k : Nat} {bs tail : List Char} {cur : Cursor}

/-- After the breaks at the beginning of a line, what has been passed is the indentation. -/
theorem column_pass_breaks_spaces (hbs : bs.all isBreak = true) (hcolumn : cur.column = 0) (m : Nat) :
    (cur.pass (bs ++ spaces m)).column = m := by
  cases bs with
  | nil =>
    rw [List.nil_append, Cursor.column_pass_of_noBreak (noBreak_spaces m), length_spaces, hcolumn,
      Nat.zero_add]
  | cons b bs =>
    rw [List.all_cons, Bool.and_eq_true] at hbs
    rw [List.cons_append, Cursor.column_pass_breaks hbs.1 hbs.2 (noBreak_spaces m), length_spaces]

/-- A text of breaks only has no line that is not empty. -/
theorem readsBlock_breaks (hk : k ≤ n) (hne : bs ≠ []) (hprintable : ∀ c ∈ bs, isPrintable c = true)
    (hbs : bs.all isBreak = true) (htail : EndsGap tail)
    (h : cur.rest = literalBody (n + 2) true bs ++ (endLine bs ++ (spaces k ++ tail)))
    (hcolumn : cur.column = 0) : ReadsBlock n k bs cur := by
  have hgiven : givenIndent n bs = n + 2 := by
    obtain ⟨b, bs, rfl⟩ := List.exists_cons_of_ne_nil hne
    rw [List.all_cons, Bool.and_eq_true] at hbs
    simp [givenIndent, hidesIndent, hbs.1]
  have hbody : literalBody (n + 2) true bs = bs := by
    simpa [literalBody] using literalBody_breaks (n + 2) hbs []
  rw [hbody, endLine_of_breaks hne hbs, List.nil_append] at h
  obtain ⟨w, hw⟩ := @takeEmptyLines_breaks (n + 2) k (Nat.succ_ne_zero _) (by omega) bs tail
    (all_isPlainBreak_of_printable hprintable hbs) (fun c hc => (htail c hc).2)
    (fun _ c hc => (htail c hc).1) (cur.rest.length + 1) 0 [] cur h hcolumn
    (by rw [h]; simp only [List.length_append]; omega)
  have hafter : (cur.pass (bs ++ spaces k)).column ≠ n + 2 := by
    rw [column_pass_breaks_spaces hbs hcolumn]
    omega
  refine ⟨bs, w, cur.pass (bs ++ spaces k), [], { more := bs }, by rw [hgiven, hw]; rfl, ?_, ?_⟩
  · rw [hgiven, if_neg (Nat.succ_ne_zero _), takeLines_end hafter, hbody, endLine_of_breaks hne hbs]
    simp
  · rw [Chomp.ofText_breaks hne hbs]
    rfl

/-- After the empty lines, the first line that is not empty gives the indentation of the others. -/
theorem readsBlock_append (hk : k ≤ n) {ds : List Char}
    (hprintable : ∀ c ∈ bs ++ ds, isPrintable c = true) (hbs : bs.all isBreak = true)
    (hne : ds ≠ []) (hds : ∀ c ∈ ds.head?, isBreak c = false) (htail : EndsGap tail)
    (h : cur.rest =
      literalBody (n + 2) true (bs ++ ds) ++ (endLine (bs ++ ds) ++ (spaces k ++ tail)))
    (hcolumn : cur.column = 0) : ReadsBlock n k (bs ++ ds) cur := by
  have hbody : literalBody (n + 2) true (bs ++ ds) =
      bs ++ (spaces (n + 2) ++ literalBody (n + 2) false ds) := by
    rw [literalBody_breaks _ hbs, literalBody_fresh _ hne hds]
  have hrest : cur.rest = bs ++ (spaces (n + 2) ++
      (literalBody (n + 2) false ds ++ (endLine ds ++ (spaces k ++ tail)))) := by
    rw [h, hbody, endLine_append _ hne]
    simp
  obtain ⟨w, hw, hgiven⟩ := takeEmptyLines_indent hprintable hbs hne hds
    (head?_literalBody (n + 2) hne hds _) hrest hcolumn
  have hnext : (cur.pass (bs ++ spaces (n + 2))).rest =
      literalBody (n + 2) false ds ++ (endLine ds ++ (spaces k ++ tail)) :=
    Cursor.rest_pass_of_eq (by rw [hrest]; simp)
  obtain ⟨text, g, htake, htext⟩ := @readsLines_literalBody (n + 2) k (by omega) ds hne hds
    (fun c hc => isPlainBreak_of_isBreak (hprintable c (List.mem_append_right _ hc))) tail htail
    ((cur.pass (bs ++ spaces (n + 2))).rest.length + 1) [] { more := bs } _ hnext
    (column_pass_breaks_spaces hbs hcolumn _)
    (by rw [hnext]; have := length_le_length_literalBody (n + 2) false ds; simp; omega)
  refine ⟨bs, w, _, text, g, hw, ?_, ?_⟩
  · rw [hgiven, htake, ← Cursor.pass_append, hbody, endLine_append _ hne]
    simp
  · rw [Chomp.ofText_append _ hne hds, htext]
    simp

end ReadsBlock

theorem readsBlock {n k : Nat} (hk : k ≤ n) {cs : List Char} (hne : cs ≠ [])
    (hprintable : ∀ c ∈ cs, isPrintable c = true) {tail : List Char} (htail : EndsGap tail)
    {cur : Cursor}
    (h : cur.rest = literalBody (n + 2) true cs ++ (endLine cs ++ (spaces k ++ tail)))
    (hcolumn : cur.column = 0) : ReadsBlock n k cs cur := by
  obtain ⟨bs, ds, rfl, hbs, hds⟩ := exists_run_append isBreak cs
  by_cases hdsne : ds = []
  · subst hdsne
    rw [List.append_nil] at *
    exact readsBlock_breaks hk hne hprintable hbs htail h hcolumn
  · exact readsBlock_append hk hprintable hbs hdsne hds htail h hcolumn

/-- A text that is written as a literal block is read back, and the break after it is taken along
with the indentation of what follows. -/
theorem block_literal {n k : Nat} (hk : k ≤ n) {s : String} (hne : s.toList ≠ [])
    (hprintable : ∀ c ∈ s.toList, isPrintable c = true) {tail : List Char} (htail : EndsGap tail)
    {cur : Cursor}
    (h : cur.rest =
      Style.write (n + 2) s .literal ++ (endLine s.toList ++ (spaces k ++ tail))) :
    block n cur =
      some (s, cur.pass (Style.write (n + 2) s .literal ++ (endLine s.toList ++ spaces k))) := by
  replace h : cur.rest = '|' :: (literalHints s.toList ++
      '\n' :: (literalBody (n + 2) true s.toList ++ (endLine s.toList ++ (spaces k ++ tail)))) := by
    simpa [Style.write] using h
  have hmark : (cur.pass ['|']).rest = literalHints s.toList ++
      '\n' :: (literalBody (n + 2) true s.toList ++ (endLine s.toList ++ (spaces k ++ tail))) :=
    Cursor.rest_pass_of_eq h
  have hhints : ((cur.pass ['|']).pass (literalHints s.toList)).rest =
      '\n' :: (literalBody (n + 2) true s.toList ++ (endLine s.toList ++ (spaces k ++ tail))) :=
    Cursor.rest_pass_of_eq hmark
  generalize hstart : ((cur.pass ['|']).pass (literalHints s.toList)).pass ['\n'] = start
  obtain ⟨breaks, w, next, text, g, hempty, hlines, htext⟩ := readsBlock hk hne hprintable htail
    (hstart ▸ Cursor.rest_pass_of_eq hhints) (hstart ▸ Cursor.column_pass_break rfl rfl _)
  have hgiven : (if (if hidesIndent s.toList then 2 else 0) = 0 then 0
      else if (0 : Int) ≤ n then (n : Int).toNat + (if hidesIndent s.toList then 2 else 0)
      else (if hidesIndent s.toList then 2 else 0)) = givenIndent n s.toList := by
    cases hhides : hidesIndent s.toList <;> simp [givenIndent, hhides]
  have hends : (!((cur.pass ['|']).pass (literalHints s.toList)).lineEnds) = false := by
    simp [Cursor.lineEnds, hhints, isBreak]
  rw [block, Cursor.at?_cons h, Cursor.skip_one_eq_pass h rfl,
    takeHeader_literalHints s.toList hmark]
  simp only [Option.bind_eq_bind, Option.bind_some, skipComment_feed hhints, hends,
    Bool.false_eq_true, if_false, Cursor.skipBreak_eq_pass hhints rfl, hstart, hgiven, hempty,
    beq_self_eq_true, hlines]
  rw [htext, ← hstart, ← Cursor.pass_append, ← Cursor.pass_append, ← Cursor.pass_append]
  simp [Style.write]

end Scalar

end RouteFleet.Yaml
