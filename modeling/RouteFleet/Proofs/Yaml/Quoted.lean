import RouteFleet.Proofs.Text.Digits
import RouteFleet.Proofs.Yaml.Style

/-! # Quoted scalars

A text that is written between quotes is read back: between double quotes any text
(`Scalar.quoted_doubleQuoted`), between single quotes one that may stand there
(`Scalar.quoted_singleQuoted`).
-/

namespace RouteFleet.Yaml

open Text Style

namespace Scalar

/-! ## Escapes -/

theorem charOfNumber?_toNat (c : Char) : charOfNumber? c.toNat = some c := by
  have hvalid := c.valid
  simp only [UInt32.isValidChar, Nat.isValidChar] at hvalid
  have htoNat : c.toNat = c.val.toNat := rfl
  have hrange : ((0xd800 ≤ c.toNat && c.toNat ≤ 0xdfff) || 0x10ffff < c.toNat) = false := by
    simp only [Bool.or_eq_false_iff, Bool.and_eq_false_iff, decide_eq_false_iff_not]
    omega
  rw [charOfNumber?, hrange]
  simp

/-- An escape that gives a character's number is read as that character. -/
theorem takeEscape_number {letter : Char} {width : Nat} (hsimple : simpleEscape? letter = none)
    (hwidth : escapeWidth? letter = some width) (hne : width ≠ 0) {c : Char}
    (hlt : c.toNat < 16 ^ width) (tail : List Char) :
    takeEscape (letter :: escapeDigits width c.toNat ++ tail) = some (c, width + 1) := by
  have hlength : (escapeDigits width c.toNat).length = width := length_escapeDigits _ _
  have htake : (escapeDigits width c.toNat ++ tail).take width = escapeDigits width c.toNat :=
    List.take_left' hlength
  simp [takeEscape, hsimple, hwidth, htake, digits?_escapeDigits hne hlt, charOfNumber?_toNat]

theorem isBreak_of_isAlnum {c : Char} (h : isAlnum c = true) : isBreak c = false := by
  cases hb : isBreak c with
  | false => rfl
  | true =>
    simp only [isAlnum, isLetter, isDigit, Bool.or_eq_true, Bool.and_eq_true, decide_eq_true_eq,
      Char.le_def, UInt32.le_iff_toNat_le] at h
    have htoNat : c.toNat = c.val.toNat := rfl
    simp only [isBreak, Bool.or_eq_true, beq_iff_eq] at hb
    rcases hb with (((rfl | rfl) | hb) | hb) | hb
    · exact absurd h (by decide)
    · exact absurd h (by decide)
    all_goals
      simp only [show 'a'.val.toNat = 97 from rfl, show 'z'.val.toNat = 122 from rfl,
        show 'A'.val.toNat = 65 from rfl, show 'Z'.val.toNat = 90 from rfl,
        show '0'.val.toNat = 48 from rfl, show '9'.val.toNat = 57 from rfl] at h
      omega

theorem noBreak_escapeDigits {letter : Char} (h : isBreak letter = false) (width n : Nat) :
    (letter :: escapeDigits width n).all (!isBreak ·) = true := by
  rw [List.all_cons, h, Bool.not_false, Bool.true_and, List.all_eq_true]
  intro c hc
  rw [isBreak_of_isAlnum (isAlnum_of_mem_escapeDigits hc)]
  rfl

/-- A character that is not a mark of its own between double quotes, nor a blank but a space. -/
def IsLiteral (c : Char) : Prop :=
  isBreak c = false ∧ c ≠ '"' ∧ c ≠ '\\' ∧ (isBlank c = true → c = ' ')

/-- A character stands for itself between double quotes, or is written as an escape that is read
as the character. -/
theorem escapeChar_cases (c : Char) :
    (escapeChar c = [c] ∧ IsLiteral c) ∨
      ∃ e es, escapeChar c = '\\' :: e :: es ∧ (e :: es).all (!isBreak ·) = true ∧
        ∀ tail, takeEscape (e :: es ++ tail) = some (c, es.length + 1) := by
  by_cases hliteral : (isPrintable c && !isBreak c && c != '"' && c != '\\') = true
  · refine .inl ⟨by rw [escapeChar, if_pos hliteral], ?_⟩
    simp only [Bool.and_eq_true, Bool.not_eq_true', bne_iff_ne] at hliteral
    exact ⟨hliteral.1.1.2, hliteral.1.2, hliteral.2, eq_space_of_isBlank hliteral.1.1.1⟩
  · refine .inr ?_
    rw [escapeChar, if_neg hliteral]
    -- The characters with a letter of their own, and then those that are given by number.
    have hofNat : ∀ n, c.toNat = n → c = Char.ofNat n := fun n hn => by rw [← hn, Char.ofNat_toNat]
    split
    all_goals try (rename_i hn; obtain rfl := hofNat _ hn; exact ⟨_, _, rfl, rfl, fun _ => rfl⟩)
    rename_i n _ _ _ _ _ _ _ _ _ _ _ _ _ _
    have hbound : c.toNat < 16 ^ 8 := by
      have hvalid := c.valid
      simp only [UInt32.isValidChar, Nat.isValidChar] at hvalid
      have htoNat : c.toNat = c.val.toNat := rfl
      omega
    split
    · refine ⟨_, _, rfl, noBreak_escapeDigits rfl _ _, fun tail => ?_⟩
      simpa using takeEscape_number rfl rfl (by decide) (by omega) tail
    · split
      · refine ⟨_, _, rfl, noBreak_escapeDigits rfl _ _, fun tail => ?_⟩
        simpa using takeEscape_number rfl rfl (by decide) (by omega) tail
      · refine ⟨_, _, rfl, noBreak_escapeDigits rfl _ _, fun tail => ?_⟩
        simpa using takeEscape_number rfl rfl (by decide) hbound tail

/-! ## Steps between quotes -/

/-- Breaks that are not line feeds count as they are, also the first of several. -/
theorem Gap.folded_breaks {b : Char} (hb : b ≠ '\n') (bs : List Char) :
    Gap.folded { blanks := [], broken := true, first := [b], more := bs } = b :: bs := by
  simp [Gap.folded, hb]

section Steps

variable {single : Bool} {fuel : Nat} {acc tail : List Char} {cur : Cursor} {c : Char}

/-- A gap is read as what it comes to. -/
theorem takeQuoted_gap {g : Gap} {next : Cursor} (hcolumn : cur.column ≠ 0) (h : cur.rest = c :: tail)
    (hc : (isBlank c || isBreak c) = true)
    (hgap : takeGap (-1) cur.rest.length {} cur = some (g, next)) :
    takeQuoted single (fuel + 1) acc cur = takeQuoted single fuel (g.folded.reverse ++ acc) next := by
  rw [takeQuoted, Cursor.atDocumentMark_of_column_ne hcolumn, if_neg Bool.false_ne_true]
  simp only [h, hc, if_true]
  rw [← h, hgap]
  rfl

/-- Several spaces are one gap. -/
theorem takeQuoted_spaces {k : Nat} (hcolumn : cur.column ≠ 0) (h : cur.rest = spaces (k + 1) ++ tail)
    (htail : EndsGap tail) : takeQuoted single (fuel + 1) acc cur =
      takeQuoted single fuel ((spaces (k + 1)).reverse ++ acc) (cur.pass (spaces (k + 1))) := by
  have hgap := @takeGap_spaces (-1) (k + 1) cur.rest.length {} cur _ rfl h htail (by rw [h]; simp)
  rw [takeQuoted_gap hcolumn h rfl hgap, List.nil_append, Gap.folded_blanks]

/-- Several breaks are one gap, which the indentation of the next line belongs to. -/
theorem takeQuoted_breaks {indent : Nat} {b : Char} {bs : List Char} (hcolumn : cur.column ≠ 0)
    (hb : Cursor.isPlainBreak b = true) (hfeed : b ≠ '\n') (hbs : bs.all Cursor.isPlainBreak = true)
    (h : cur.rest = b :: (bs ++ (spaces indent ++ tail))) (htail : EndsGap tail) :
    takeQuoted single (fuel + 1) acc cur =
      takeQuoted single fuel ((b :: bs).reverse ++ acc) (cur.pass (b :: (bs ++ spaces indent))) := by
  have hgap := @takeGap_breaks (-1) b bs indent cur.rest.length {} cur _ rfl hb hbs h htail
    (by rw [h]; simp only [List.length_append, List.length_cons, length_spaces]; omega)
  have hblank : (isBlank b || isBreak b) = true := by
    rw [Cursor.isBreak_of_isPlainBreak hb, Bool.or_true]
  rw [takeQuoted_gap hcolumn h hblank hgap, List.nil_append, Gap.folded_breaks hfeed]

/-- A character that is no mark is read as itself. -/
theorem takeQuoted_literal (hcolumn : cur.column ≠ 0) (h : cur.rest = c :: tail)
    (hblank : isBlank c = false) (hbreak : isBreak c = false)
    (hmark : (if single then c == '\x27' else c == '"' || c == '\\') = false) :
    takeQuoted single (fuel + 1) acc cur = takeQuoted single fuel (c :: acc) (cur.pass [c]) := by
  rw [takeQuoted, Cursor.atDocumentMark_of_column_ne hcolumn, if_neg Bool.false_ne_true,
    ← Cursor.skip_one_eq_pass h hbreak]
  cases single with
  | true =>
    replace hmark : (c == '\x27') = false := hmark
    simp only [h, hblank, hbreak, Bool.or_self, Bool.false_eq_true, if_false, if_true, hmark]
  | false =>
    replace hmark : (c == '"' || c == '\\') = false := hmark
    rw [Bool.or_eq_false_iff] at hmark
    simp only [h, hblank, hbreak, Bool.or_self, Bool.false_eq_true, if_false, hmark.1, hmark.2]

/-- A quote that is written twice is read as one. -/
theorem takeQuoted_twice (hcolumn : cur.column ≠ 0) (h : cur.rest = '\x27' :: '\x27' :: tail) :
    takeQuoted true (fuel + 1) acc cur =
      takeQuoted true fuel ('\x27' :: acc) (cur.pass ['\x27', '\x27']) := by
  have hblank : (isBlank '\x27' || isBreak '\x27') = false := rfl
  rw [takeQuoted, Cursor.atDocumentMark_of_column_ne hcolumn, if_neg Bool.false_ne_true,
    ← Cursor.skip_two_eq_pass h rfl rfl]
  simp only [h, hblank, Bool.false_eq_true, if_false, if_true, List.head?_cons, beq_self_eq_true]

/-- An escape is read as the character that it stands for. -/
theorem takeQuoted_escape {e d : Char} {es : List Char} (hcolumn : cur.column ≠ 0)
    (h : cur.rest = '\\' :: e :: es ++ tail) (hes : (e :: es).all (!isBreak ·) = true)
    (htake : takeEscape (e :: es ++ tail) = some (d, es.length + 1)) :
    takeQuoted false (fuel + 1) acc cur =
      takeQuoted false fuel (d :: acc) (cur.pass ('\\' :: e :: es)) := by
  have hskip : cur.skip (es.length + 1 + 1) = cur.pass ('\\' :: e :: es) :=
    Cursor.skip_eq_pass h (by rw [List.all_cons, hes]; rfl)
  have hhead : isBreak e = false := by
    rw [List.all_cons, Bool.and_eq_true, Bool.not_eq_true'] at hes
    exact hes.1
  have hblank : (isBlank '\\' || isBreak '\\') = false := rfl
  have hquote : ('\\' == '"') = false := rfl
  rw [takeQuoted, Cursor.atDocumentMark_of_column_ne hcolumn, if_neg Bool.false_ne_true]
  simp only [h, List.cons_append, hblank, hquote, Bool.false_eq_true, if_false, beq_self_eq_true,
    if_true, List.head?_cons, Option.any_some, hhead]
  rw [← List.cons_append, htake]
  simp only [Option.bind_eq_bind, Option.bind_some, hskip]

end Steps

/-! ## Between double quotes -/

theorem flatMap_escapeChar_spaces (n : Nat) : (spaces n).flatMap escapeChar = spaces n := by
  induction n with
  | zero => rfl
  | succ n ih => rw [spaces_succ, List.flatMap_cons, ih]; rfl

/-- What is written for a text that does not begin with a space does not begin with a gap. -/
theorem endsGap_escaped {ds : List Char} (h : ∀ c ∈ ds.head?, c ≠ ' ') (tail : List Char) :
    EndsGap (ds.flatMap escapeChar ++ '"' :: tail) := by
  cases ds with
  | nil => exact endsGap_cons.mpr ⟨rfl, rfl⟩
  | cons c ds =>
    rw [List.flatMap_cons]
    rcases escapeChar_cases c with ⟨heq, hbreak, -, -, hblank⟩ | ⟨e, es, heq, -, -⟩
    · rw [heq]
      refine endsGap_cons.mpr ⟨?_, hbreak⟩
      exact Bool.eq_false_iff.mpr fun hb => h c rfl (hblank hb)
    · rw [heq]
      exact endsGap_cons.mpr ⟨rfl, rfl⟩

/-- The inside of double quotes, up to the closing one, is read as the text that it was written
for. -/
theorem takeQuoted_escaped (cs : List Char) {tail acc : List Char} {fuel : Nat} {cur : Cursor}
    (h : cur.rest = cs.flatMap escapeChar ++ '"' :: tail) (hcolumn : cur.column ≠ 0)
    (hfuel : cs.length < fuel) : takeQuoted false fuel acc cur =
      some (acc.reverse ++ cs, cur.pass (cs.flatMap escapeChar ++ ['"'])) := by
  induction hn : cs.length using Nat.strongRecOn generalizing cs acc fuel cur with
  | ind n ih =>
    subst hn
    obtain ⟨fuel, rfl⟩ : ∃ m, fuel = m + 1 := ⟨fuel - 1, by omega⟩
    cases cs with
    | nil =>
      replace h : cur.rest = '"' :: tail := h
      have hblank : (isBlank '"' || isBreak '"') = false := rfl
      simp [takeQuoted, Cursor.atDocumentMark_of_column_ne hcolumn, h, hblank,
        Cursor.skip_one_eq_pass h rfl]
    | cons c cs =>
      by_cases hspace : c = ' '
      · -- Several spaces are one gap, so all that stand here are taken at once.
        obtain ⟨k, ds, hsplit, hds⟩ := exists_spaces_append cs
        have hcs : c :: cs = spaces (k + 1) ++ ds := by rw [hspace, hsplit, spaces_succ]; rfl
        have hlength : (c :: cs).length = k + 1 + ds.length := by simp [hcs]
        rw [hcs, List.flatMap_append, flatMap_escapeChar_spaces] at h ⊢
        rw [List.append_assoc] at h
        rw [takeQuoted_spaces hcolumn h (endsGap_escaped hds tail),
          ih ds.length (by omega) ds (Cursor.rest_pass_of_eq h)
            (Cursor.column_pass_ne_zero (noBreak_spaces _) hcolumn) (by omega) rfl]
        simp [Cursor.pass_append]
      · rw [List.flatMap_cons, List.append_assoc] at h
        rw [List.flatMap_cons, List.append_assoc, Cursor.pass_append]
        have hfuel' : cs.length < fuel := Nat.lt_of_succ_lt_succ hfuel
        rcases escapeChar_cases c with ⟨heq, hbreak, hquote, hslash, hblank⟩ | ⟨e, es, heq, hes, htake⟩
        · rw [heq] at h ⊢
          have hb : isBlank c = false := Bool.eq_false_iff.mpr fun hb => hspace (hblank hb)
          rw [takeQuoted_literal hcolumn h hb hbreak (by simp [hquote, hslash]),
            ih cs.length (by simp) cs (Cursor.rest_pass_of_eq h)
              (Cursor.column_pass_ne_zero (by simp [hbreak]) hcolumn) hfuel' rfl]
          simp
        · rw [heq] at h ⊢
          rw [takeQuoted_escape hcolumn h hes (htake _),
            ih cs.length (by simp) cs (Cursor.rest_pass_of_eq h)
              (Cursor.column_pass_ne_zero (by rw [List.all_cons, hes]; rfl) hcolumn) hfuel' rfl]
          simp

theorem length_le_length_escaped (cs : List Char) :
    cs.length ≤ (cs.flatMap escapeChar).length := by
  induction cs with
  | nil => exact Nat.le_refl 0
  | cons c cs ih =>
    have hne : 0 < (escapeChar c).length := by
      rcases escapeChar_cases c with ⟨heq, -⟩ | ⟨e, es, heq, -⟩ <;> simp [heq]
    rw [List.flatMap_cons, List.length_append, List.length_cons]
    omega

/-! ## Between single quotes -/

/-- Whether a text may stand between single quotes: all its characters can stand for themselves, no
space is next to a break, and no break is a line feed. -/
structure SingleSafe (cs : List Char) : Prop where
  printable : ∀ c ∈ cs, isPrintable c = true
  noFeed : '\n' ∉ cs
  noSpaceBefore : adjacent (· == ' ') isBreak cs = false
  noSpaceAfter : adjacent isBreak (· == ' ') cs = false

theorem SingleSafe.of_append {cs ds : List Char} (h : SingleSafe (cs ++ ds)) : SingleSafe ds where
  printable := fun c hc => h.printable c (List.mem_append_right _ hc)
  noFeed := fun hc => h.noFeed (List.mem_append_right _ hc)
  noSpaceBefore := adjacent_of_append h.noSpaceBefore
  noSpaceAfter := adjacent_of_append h.noSpaceAfter

theorem SingleSafe.isPlainBreak {cs : List Char} (h : SingleSafe cs) {c : Char} (hc : c ∈ cs)
    (hbreak : isBreak c = true) : Cursor.isPlainBreak c = true ∧ c ≠ '\n' :=
  ⟨isPlainBreak_of_isBreak (h.printable c hc) hbreak, fun heq => h.noFeed (heq ▸ hc)⟩

theorem singleQuotedBody_spaces (indent n : Nat) (ds : List Char) :
    singleQuotedBody indent false (spaces n ++ ds) =
      spaces n ++ singleQuotedBody indent false ds := by
  induction n with
  | zero => rfl
  | succ n ih =>
    rw [spaces_succ, List.cons_append, singleQuotedBody]
    simp [ih, isBreak]

theorem singleQuotedBody_breaks (indent : Nat) {b : Char} {bs ds : List Char}
    (hb : isBreak b = true) (hbs : bs.all isBreak = true) (fresh : Bool) :
    singleQuotedBody indent fresh (b :: (bs ++ ds)) =
      b :: (bs ++ singleQuotedBody indent true ds) := by
  induction bs generalizing b fresh with
  | nil => rw [singleQuotedBody, if_pos hb]; rfl
  | cons c bs ih =>
    rw [List.all_cons, Bool.and_eq_true] at hbs
    rw [singleQuotedBody, if_pos hb, List.cons_append, ih hbs.1 hbs.2]
    rfl

/-- A line after the first is indented where it begins. -/
theorem singleQuotedBody_fresh (indent : Nat) {ds : List Char}
    (h : ∀ c ∈ ds.head?, isBreak c = false) : singleQuotedBody indent true ds =
      spaces indent ++ singleQuotedBody indent false ds := by
  cases ds with
  | nil => simp [singleQuotedBody]
  | cons c ds =>
    have hc : isBreak c = false := h c rfl
    simp [singleQuotedBody, hc]

theorem endsGap_singleQuotedBody {ds : List Char} (indent : Nat)
    (h : ∀ c ∈ ds.head?, isBlank c = false ∧ isBreak c = false) (tail : List Char) :
    EndsGap (singleQuotedBody indent false ds ++ '\x27' :: tail) := by
  cases ds with
  | nil => exact endsGap_cons.mpr ⟨rfl, rfl⟩
  | cons c ds =>
    obtain ⟨hblank, hbreak⟩ := h c rfl
    rw [singleQuotedBody, if_neg (by rw [hbreak]; exact Bool.false_ne_true)]
    by_cases hquote : c = '\x27'
    · rw [if_pos hquote]
      exact endsGap_cons.mpr ⟨hblank, hbreak⟩
    · rw [if_neg hquote]
      exact endsGap_cons.mpr ⟨hblank, hbreak⟩

/-- A run of spaces between single quotes, and what follows it. -/
theorem SingleSafe.endsGap_of_spaces {k : Nat} {ds : List Char}
    (h : SingleSafe (spaces (k + 1) ++ ds)) (hds : ∀ c ∈ ds.head?, c ≠ ' ') :
    ∀ c ∈ ds.head?, isBlank c = false ∧ isBreak c = false := by
  intro d hd
  have hlast : spaces (k + 1) ++ ds = spaces k ++ ' ' :: ds := by
    rw [spaces_add, List.append_assoc]
    rfl
  have hadj := h.noSpaceBefore
  rw [hlast] at hadj
  refine ⟨Bool.eq_false_iff.mpr fun hb => hds d hd (eq_space_of_isBlank ?_ hb), ?_⟩
  · exact h.printable d (List.mem_append_right _ (List.mem_of_mem_head? hd))
  · exact head_of_not_adjacent hadj rfl d hd

/-- A run of breaks between single quotes, and what follows it. -/
theorem SingleSafe.endsGap_of_breaks {b : Char} {bs ds : List Char}
    (h : SingleSafe (b :: (bs ++ ds))) (hb : isBreak b = true) (hbs : bs.all isBreak = true)
    (hds : ∀ c ∈ ds.head?, isBreak c = false) :
    ∀ c ∈ ds.head?, isBlank c = false ∧ isBreak c = false := by
  intro d hd
  refine ⟨Bool.eq_false_iff.mpr fun hblank => ?_, hds d hd⟩
  have hmem : d ∈ b :: (bs ++ ds) :=
    List.mem_cons_of_mem _ (List.mem_append_right _ (List.mem_of_mem_head? hd))
  obtain rfl := eq_space_of_isBlank (h.printable d hmem) hblank
  have hne : (b :: bs) ≠ [] := List.cons_ne_nil _ _
  have hlast : b :: (bs ++ ds) = (b :: bs).dropLast ++ (b :: bs).getLast hne :: ds := by
    rw [List.append_cons, List.dropLast_concat_getLast hne, List.cons_append]
  have hadj := h.noSpaceAfter
  rw [hlast] at hadj
  have hbreak : isBreak ((b :: bs).getLast hne) = true := by
    refine List.all_eq_true.mp ?_ _ (List.getLast_mem hne)
    rw [List.all_cons, hb, hbs]
    rfl
  exact absurd (head_of_not_adjacent hadj hbreak _ hd) (by decide)

theorem length_le_length_singleQuotedBody (indent : Nat) (fresh : Bool) (cs : List Char) :
    cs.length ≤ (singleQuotedBody indent fresh cs).length := by
  induction cs generalizing fresh with
  | nil => exact Nat.zero_le _
  | cons c cs ih =>
    have htrue := ih true
    have hfalse := ih false
    rw [singleQuotedBody]
    split
    · exact Nat.succ_le_succ htrue
    · have hone : 1 ≤ (if c = '\x27' then [c, c] else [c]).length := by split <;> simp
      rw [List.length_append, List.length_append, List.length_cons]
      omega

/-- The inside of single quotes, up to the closing one that `tail` follows, is read as the text that it
was written for, wherever it begins. -/
def ReadsSingle (indent : Nat) (tail : List Char) (fuel : Nat) (ds : List Char) : Prop :=
  ∀ (acc : List Char) {cur : Cursor},
    cur.rest = singleQuotedBody indent false ds ++ '\x27' :: tail → cur.column ≠ 0 →
      takeQuoted true fuel acc cur =
        some (acc.reverse ++ ds, cur.pass (singleQuotedBody indent false ds ++ ['\x27']))

section ReadsSingle

variable {indent : Nat} {tail : List Char} {fuel : Nat} {ds : List Char}

theorem readsSingle_nil (htail : tail.head? ≠ some '\x27') :
    ReadsSingle indent tail (fuel + 1) [] := by
  intro acc cur h hcolumn
  replace h : cur.rest = '\x27' :: tail := h
  have hblank : (isBlank '\x27' || isBreak '\x27') = false := rfl
  simp [takeQuoted, Cursor.atDocumentMark_of_column_ne hcolumn, h, hblank, htail,
    Cursor.skip_one_eq_pass h rfl, singleQuotedBody]

/-- Several spaces are one gap, so all that stand in a place are taken at once. -/
theorem ReadsSingle.spaces_append (hread : ReadsSingle indent tail fuel ds) {k : Nat}
    (hsafe : SingleSafe (spaces (k + 1) ++ ds)) (hds : ∀ c ∈ ds.head?, c ≠ ' ') :
    ReadsSingle indent tail (fuel + 1) (spaces (k + 1) ++ ds) := by
  intro acc cur h hcolumn
  rw [singleQuotedBody_spaces] at h ⊢
  rw [List.append_assoc] at h
  have hends := endsGap_singleQuotedBody indent (hsafe.endsGap_of_spaces hds) tail
  rw [takeQuoted_spaces hcolumn h hends, hread _ (Cursor.rest_pass_of_eq h)
    (Cursor.column_pass_ne_zero (noBreak_spaces _) hcolumn)]
  simp [Cursor.pass_append]

/-- The same for breaks, which the indentation of the next line follows. -/
theorem ReadsSingle.breaks_append (hread : ReadsSingle indent tail fuel ds) (hindent : indent ≠ 0) {b : Char}
    {bs : List Char} (hsafe : SingleSafe (b :: (bs ++ ds))) (hb : isBreak b = true)
    (hbs : bs.all isBreak = true) (hds : ∀ c ∈ ds.head?, isBreak c = false) :
    ReadsSingle indent tail (fuel + 1) (b :: (bs ++ ds)) := by
  intro acc cur h hcolumn
  obtain ⟨hplain, hfeed⟩ := hsafe.isPlainBreak List.mem_cons_self hb
  have hplains : bs.all Cursor.isPlainBreak = true := by
    rw [List.all_eq_true]
    intro c hc
    refine (hsafe.isPlainBreak ?_ (List.all_eq_true.mp hbs c hc)).1
    exact List.mem_cons_of_mem _ (List.mem_append_left _ hc)
  rw [singleQuotedBody_breaks indent hb hbs, singleQuotedBody_fresh indent hds] at h ⊢
  have hends := endsGap_singleQuotedBody indent (hsafe.endsGap_of_breaks hb hbs hds) tail
  have hrest : cur.rest = b :: (bs ++ (spaces indent ++
      (singleQuotedBody indent false ds ++ '\x27' :: tail))) := by simpa using h
  have hnext : (cur.pass (b :: (bs ++ spaces indent))).rest =
      singleQuotedBody indent false ds ++ '\x27' :: tail :=
    Cursor.rest_pass_of_eq (by simpa using hrest)
  have hafter : (cur.pass (b :: (bs ++ spaces indent))).column ≠ 0 := by
    rw [← List.cons_append, Cursor.pass_append, Cursor.column_pass_of_noBreak (noBreak_spaces _),
      length_spaces]
    omega
  rw [takeQuoted_breaks hcolumn hplain hfeed hplains hrest hends, hread _ hnext hafter,
    ← Cursor.pass_append]
  simp

/-- A quote is written twice. -/
theorem ReadsSingle.quote_cons (hread : ReadsSingle indent tail fuel ds) :
    ReadsSingle indent tail (fuel + 1) ('\x27' :: ds) := by
  intro acc cur h hcolumn
  have hbody : singleQuotedBody indent false ('\x27' :: ds) =
      '\x27' :: '\x27' :: singleQuotedBody indent false ds := by
    simp [singleQuotedBody, isBreak]
  rw [hbody] at h ⊢
  rw [takeQuoted_twice hcolumn h, hread _ (Cursor.rest_pass_of_eq h)
    (Cursor.column_pass_ne_zero rfl hcolumn), ← Cursor.pass_append]
  simp

theorem ReadsSingle.literal_cons (hread : ReadsSingle indent tail fuel ds) {c : Char}
    (hblank : isBlank c = false) (hbreak : isBreak c = false) (hquote : c ≠ '\x27') :
    ReadsSingle indent tail (fuel + 1) (c :: ds) := by
  intro acc cur h hcolumn
  have hbody : singleQuotedBody indent false (c :: ds) = c :: singleQuotedBody indent false ds := by
    simp [singleQuotedBody, hbreak, hquote]
  rw [hbody] at h ⊢
  rw [takeQuoted_literal hcolumn h hblank hbreak (by simp [hquote]),
    hread _ (Cursor.rest_pass_of_eq h) (Cursor.column_pass_ne_zero (by simp [hbreak]) hcolumn),
    ← Cursor.pass_append]
  simp

end ReadsSingle

theorem readsSingle {indent : Nat} (hindent : indent ≠ 0) (cs : List Char) (hsafe : SingleSafe cs)
    {tail : List Char} (htail : tail.head? ≠ some '\x27') {fuel : Nat} (hfuel : cs.length < fuel) :
    ReadsSingle indent tail fuel cs := by
  induction hn : cs.length using Nat.strongRecOn generalizing cs fuel with
  | ind n ih =>
    subst hn
    obtain ⟨fuel, rfl⟩ : ∃ m, fuel = m + 1 := ⟨fuel - 1, by omega⟩
    cases cs with
    | nil => exact readsSingle_nil htail
    | cons c cs =>
      rw [List.length_cons] at ih hfuel
      cases hblank : isBlank c with
      | true =>
        obtain rfl : c = ' ' := eq_space_of_isBlank (hsafe.printable c List.mem_cons_self) hblank
        obtain ⟨k, ds, rfl, hds⟩ := exists_spaces_append cs
        rw [List.length_append] at ih hfuel
        change SingleSafe (spaces (k + 1) ++ ds) at hsafe
        exact (ih ds.length (by omega) ds hsafe.of_append (by omega) rfl).spaces_append hsafe hds
      | false =>
        cases hbreak : isBreak c with
        | true =>
          obtain ⟨bs, ds, rfl, hbs, hds⟩ := exists_run_append isBreak cs
          rw [List.length_append] at ih hfuel
          have hdsSafe : SingleSafe ds := @SingleSafe.of_append (c :: bs) ds (by simpa using hsafe)
          exact (ih ds.length (by omega) ds hdsSafe (by omega) rfl).breaks_append hindent hsafe hbreak hbs hds
        | false =>
          have hread := ih cs.length (by omega) cs (@SingleSafe.of_append [c] cs hsafe)
            (show cs.length < fuel by omega) rfl
          by_cases hquote : c = '\x27'
          · exact hquote ▸ hread.quote_cons
          · exact hread.literal_cons hblank hbreak hquote

/-! ## The whole scalar -/

/-- A text between double quotes is read back. -/
theorem quoted_doubleQuoted (indent : Nat) (s : String) {tail : List Char} {cur : Cursor}
    (h : cur.rest = Style.write indent s .doubleQuoted ++ tail) :
    quoted cur = some (s, cur.pass (Style.write indent s .doubleQuoted)) := by
  replace h : cur.rest = '"' :: (s.toList.flatMap escapeChar ++ '"' :: tail) := by
    simpa [Style.write] using h
  have hrest : (cur.pass ['"']).rest = s.toList.flatMap escapeChar ++ '"' :: tail :=
    Cursor.rest_pass_of_eq h
  have hcolumn : (cur.pass ['"']).column ≠ 0 := by
    rw [Cursor.column_pass_of_noBreak rfl]
    exact Nat.succ_ne_zero _
  have hfuel : s.toList.length < cur.rest.length + 1 := by
    have hle := length_le_length_escaped s.toList
    rw [h, List.length_cons, List.length_append]
    omega
  rw [quoted, Cursor.at?_cons h, Cursor.skip_one_eq_pass h rfl]
  rw [show ('"' == '\x27') = false from rfl, takeQuoted_escaped s.toList hrest hcolumn hfuel]
  simp [Style.write, ← Cursor.pass_append]

/-- A text that may stand between single quotes is read back from there. -/
theorem quoted_singleQuoted {indent : Nat} (hindent : indent ≠ 0) {s : String}
    (hsafe : SingleSafe s.toList) {tail : List Char} (htail : tail.head? ≠ some '\x27')
    {cur : Cursor} (h : cur.rest = Style.write indent s .singleQuoted ++ tail) :
    quoted cur = some (s, cur.pass (Style.write indent s .singleQuoted)) := by
  replace h : cur.rest = '\x27' :: (singleQuotedBody indent false s.toList ++ '\x27' :: tail) := by
    simpa [Style.write] using h
  have hrest : (cur.pass ['\x27']).rest =
      singleQuotedBody indent false s.toList ++ '\x27' :: tail := Cursor.rest_pass_of_eq h
  have hcolumn : (cur.pass ['\x27']).column ≠ 0 := by
    rw [Cursor.column_pass_of_noBreak rfl]
    exact Nat.succ_ne_zero _
  have hfuel : s.toList.length < cur.rest.length + 1 := by
    have hle := length_le_length_singleQuotedBody indent false s.toList
    rw [h, List.length_cons, List.length_append]
    omega
  rw [quoted, Cursor.at?_cons h, Cursor.skip_one_eq_pass h rfl]
  rw [show ('\x27' == '\x27') = true from rfl,
    readsSingle hindent s.toList hsafe htail hfuel [] hrest hcolumn]
  simp [Style.write, ← Cursor.pass_append]

end Scalar

end RouteFleet.Yaml
