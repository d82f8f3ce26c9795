import RouteFleet.Proofs.Hcl.Reader
import RouteFleet.Proofs.Text.Digits
import RouteFleet.Proofs.Text.Split

/-! # Texts between quotes and between marks

Where nothing in a text begins a part to be computed (`IsUnmarked`), what is read between quotes is what
the characters there spell (`Spells`), neither more nor less (`exists_spells_of_parts`,
`takes_quoted`), and what is read on several lines between two marks is empty or ends with its line
(`yields_heredoc`).
-/

namespace RouteFleet.Hcl

open Text ReadM

/-- Whether nothing in a text begins a part to be computed. -/
def IsUnmarked (cs : List Char) : Prop := ¬ ['$', '\x7b'] <:+: cs ∧ ¬ ['%', '\x7b'] <:+: cs

theorem IsUnmarked.within {cs ds : List Char} (h : IsUnmarked ds) (hwithin : cs <:+: ds) : IsUnmarked cs :=
  ⟨fun hmark => h.1 (hmark.trans hwithin), fun hmark => h.2 (hmark.trans hwithin)⟩

theorem isUnmarked_iff {cs : List Char} :
    IsUnmarked cs ↔ occursIn ['$', '\x7b'] cs = false ∧ occursIn ['%', '\x7b'] cs = false := by
  rw [IsUnmarked, ← occursIn_iff, ← occursIn_iff, Bool.not_eq_true, Bool.not_eq_true]

/-- No such beginning has a character in it but those three. -/
theorem isUnmarked_append_cons {c : Char} (hc : c ∉ ['$', '%', '\x7b']) {a b : List Char} :
    IsUnmarked (a ++ c :: b) ↔ IsUnmarked a ∧ IsUnmarked b := by
  simp only [List.mem_cons, List.not_mem_nil, or_false, not_or] at hc
  have hdollar : c ∉ ['$', '\x7b'] := by simp [hc]
  have hpercent : c ∉ ['%', '\x7b'] := by simp [hc]
  rw [IsUnmarked, infix_append_cons_iff hdollar, infix_append_cons_iff hpercent, not_or, not_or]
  exact and_and_and_comm

theorem IsUnmarked.markText_eq {cs : List Char} (h : IsUnmarked cs) : Expression.markText cs = cs := by
  fun_induction Expression.markText cs with
  | case1 rest => exact absurd ⟨[], rest, rfl⟩ h.1
  | case2 rest => exact absurd ⟨[], rest, rfl⟩ h.2
  | case3 c rest _ _ ih => rw [ih (h.within (List.infix_cons (List.infix_refl rest)))]
  | case4 => rfl

/-! ## Parts -/

theorem Part.text?_cons (cs : List Char) (ps : List Part) :
    Part.text? (Part.cons cs ps) = (Part.text? ps).map (cs ++ ·) := by
  match ps with
  | [] => simp [Part.cons, Part.text?]
  | [.literal _] => rfl
  | [.code _] => rfl
  | .literal _ :: _ :: _ => rfl
  | .code _ :: _ :: _ => rfl

section Parts

variable {closing : Closing} {atLineStart : Bool} {p : Place} {fuel : Nat}

theorem parts_next {r : Reading} (h : closing.isNext atLineStart r.rest = true) :
    parts closing atLineStart p (fuel + 1) r = some ([], r) := by
  rw [parts]
  change (if closing.isNext atLineStart r.rest then pure [] else _ : ReadM (List Part)) r = _
  rw [if_pos h]
  rfl

theorem parts_nil {kept : List Char} (h : closing.isNext atLineStart [] = false) :
    parts closing atLineStart p (fuel + 1) ⟨[], kept⟩ = none := by
  rw [parts]
  change (if closing.isNext atLineStart [] then pure [] else failure : ReadM (List Part)) _ = _
  rw [if_neg (by simp [h])]
  rfl

theorem partCons_eq_some_iff {cs : List Char} {ps : List Part} {q : ReadM (List Part)} {r s : Reading} :
    (do return Part.cons cs (← q) : ReadM (List Part)) r = some (ps, s) ↔
      ∃ more, q r = some (more, s) ∧ ps = Part.cons cs more := by
  rw [bind_eq_some_iff]
  constructor
  · rintro ⟨more, m, hq, h⟩
    obtain ⟨rfl, rfl⟩ := Prod.mk.inj (Option.some.inj h)
    exact ⟨more, hq, rfl⟩
  · rintro ⟨more, hq, rfl⟩
    exact ⟨more, s, hq, rfl⟩

theorem parts_backslash {cs kept : List Char} :
    parts .quote atLineStart p (fuel + 1) ⟨'\\' :: cs, kept⟩ = (do
      let (c, after) ← takeEscape cs
      goTo after
      return Part.cons [c] (← parts .quote false p fuel) : ReadM (List Part)) ⟨'\\' :: cs, kept⟩ := by
  rw [parts]
  rfl

/-- One step over what a backslash begins. -/
theorem parts_escape {cs after kept : List Char} {c : Char} (h : takeEscape cs = some (c, after)) :
    parts .quote atLineStart p (fuel + 1) ⟨'\\' :: cs, kept⟩ =
      (do return Part.cons [c] (← parts .quote false p fuel) : ReadM (List Part)) ⟨after, kept⟩ := by
  rw [parts_backslash, h]
  rfl

theorem parts_escape_none {cs kept : List Char} (h : takeEscape cs = none) :
    parts .quote atLineStart p (fuel + 1) ⟨'\\' :: cs, kept⟩ = none := by
  rw [parts_backslash, h]
  rfl

/-- The characters that one step takes, of those that stand for themselves. -/
theorem exists_run (c : Char) (cs : List Char) : ∃ run more, cs = run ++ more ∧
    (∀ d ∈ run, isOrdinary d = true) ∧ (isOrdinary c = false → run = []) ∧
    (if isOrdinary c then (c :: cs).takeWhile isOrdinary else [c]) = c :: run := by
  by_cases hc : isOrdinary c = true
  · refine ⟨cs.takeWhile isOrdinary, cs.dropWhile isOrdinary, List.takeWhile_append_dropWhile.symm,
      List.all_eq_true.mp List.all_takeWhile, fun h => absurd hc (by simp [h]), ?_⟩
    rw [if_pos hc, List.takeWhile_cons_of_pos hc]
  · exact ⟨[], cs, rfl, List.forall_mem_nil _, fun _ => rfl, if_neg hc⟩

/-- One step over characters that stand for themselves: over a row of ordinary ones at once. -/
theorem parts_run {c : Char} {cs : List Char} (hunmarked : IsUnmarked (c :: cs))
    (hnext : closing.isNext atLineStart (c :: cs) = false) (hback : c = '\\' → closing ≠ .quote) :
    ∃ run more, cs = run ++ more ∧ (∀ d ∈ run, isOrdinary d = true) ∧ (isOrdinary c = false → run = []) ∧
      ∀ kept, parts closing atLineStart p (fuel + 1) ⟨c :: cs, kept⟩ =
        (do return Part.cons (c :: run) (← parts closing (c = '\n') p fuel) : ReadM (List Part))
          ⟨more, (c :: run).reverse ++ kept⟩ := by
  obtain ⟨run, more, rfl, hordinary, hsingle, hrun⟩ := exists_run c cs
  refine ⟨run, more, rfl, hordinary, hsingle, fun kept => ?_⟩
  rw [parts]
  change (ite _ _ _ : ReadM (List Part)) _ = _
  rw [if_neg (by simp [hnext])]
  dsimp only
  generalize hds : c :: (run ++ more) = ds at hunmarked
  split
  case h_1 => cases hds
  -- Four ways to begin a part to be computed, or to spell such a beginning.
  case h_2 tail => exact absurd ⟨['$'], tail, rfl⟩ hunmarked.1
  case h_3 tail => exact absurd ⟨['%'], tail, rfl⟩ hunmarked.2
  case h_4 tail => exact absurd ⟨[], tail, rfl⟩ hunmarked.1
  case h_5 tail => exact absurd ⟨[], tail, rfl⟩ hunmarked.2
  case h_6 escaped =>
    obtain ⟨rfl, rfl⟩ := List.cons.inj hds
    obtain rfl := hsingle (by decide)
    rw [if_neg (hback rfl)]
    rfl
  case h_7 =>
    obtain ⟨rfl, rfl⟩ := List.cons.inj hds
    rw [hrun]
    change (do return Part.cons (c :: run) (← parts closing (c = '\n') p fuel) : ReadM (List Part))
      ⟨(run ++ more).drop run.length, (c :: (run ++ more).take run.length).reverse ++ kept⟩ = _
    rw [List.drop_left, List.take_left]

end Parts

/-! ## Between quotes -/

/-- That what is written between quotes stands for a text: a backslash with what follows it for one
character, any other character but a quote for itself. -/
inductive Spells : List Char → List Char → Prop
  | nil : Spells [] []
  | char {c : Char} {written said : List Char} (hquote : c ≠ '"') (hback : c ≠ '\\')
    (h : Spells written said) : Spells (c :: written) (c :: said)
  | escape {c first : Char} {more written said : List Char} (hmore : '"' ∉ more)
    (hc : ∀ after, takeEscape (first :: more ++ after) = some (c, after)) (h : Spells written said) :
    Spells ('\\' :: first :: more ++ written) (c :: said)

theorem charOfCode?_eq_some {digits : Nat} {cs after : List Char} {c : Char}
    (h : charOfCode? digits cs = some (c, after)) : ∃ code, cs = code ++ after ∧ '"' ∉ code ∧
      ∀ after, charOfCode? digits (code ++ after) = some (c, after) := by
  rw [charOfCode?] at h
  by_cases hlength : (cs.take digits).length < digits
  · rw [if_pos hlength] at h
    cases h
  rw [if_neg hlength] at h
  obtain ⟨n, hn, h⟩ := Option.bind_eq_some_iff.mp h
  by_cases hscalar : n < 0xd800 ∨ 0xe000 ≤ n ∧ n < 0x110000
  · rw [if_pos (by simpa using hscalar)] at h
    obtain ⟨rfl, rfl⟩ := Prod.mk.inj (Option.some.inj h)
    refine ⟨cs.take digits, (List.take_append_drop digits cs).symm, fun hquote => ?_, fun after => ?_⟩
    · rw [digits?_eq_none (fun _ => rfl) hquote] at hn
      cases hn
    · have hall : (cs.take digits).length = digits := by
        rw [List.length_take] at hlength ⊢
        omega
      rw [charOfCode?, List.take_left' hall, List.drop_left' hall]
      dsimp only
      rw [if_neg hlength, hn]
      exact if_pos (by simpa using hscalar)
  · rw [if_neg (by simpa using hscalar)] at h
    cases h

theorem takeEscape_eq_some {cs after : List Char} {c : Char} (h : takeEscape cs = some (c, after)) :
    ∃ first more, cs = first :: more ++ after ∧ '"' ∉ more ∧
      ∀ after, takeEscape (first :: more ++ after) = some (c, after) := by
  unfold takeEscape at h
  split at h
  case h_9 cs =>
    obtain ⟨code, rfl, hquote, hcode⟩ := charOfCode?_eq_some h
    exact ⟨'u', code, rfl, hquote, hcode⟩
  case h_10 cs =>
    obtain ⟨code, rfl, hquote, hcode⟩ := charOfCode?_eq_some h
    exact ⟨'U', code, rfl, hquote, hcode⟩
  case h_11 => cases h
  all_goals
    obtain ⟨rfl, rfl⟩ := Prod.mk.inj (Option.some.inj h)
    exact ⟨_, [], rfl, List.not_mem_nil, fun _ => rfl⟩

/-- Without quotes and backslashes, a text is written as it is. -/
theorem Spells.of_plain {cs : List Char} (hquote : '"' ∉ cs) (hback : '\\' ∉ cs) : Spells cs cs := by
  induction cs with
  | nil => exact .nil
  | cons c cs ih =>
    rw [List.mem_cons, not_or] at hquote hback
    exact .char (Ne.symm hquote.1) (Ne.symm hback.1) (ih hquote.2 hback.2)

theorem Spells.length_le {written said : List Char} (h : Spells written said) :
    said.length ≤ written.length := by
  induction h with
  | nil => exact Nat.le_refl 0
  | char _ _ _ ih => exact Nat.succ_le_succ ih
  | escape _ _ _ ih =>
    simp only [List.length_cons, List.cons_append, List.length_append]
    omega

/-- Without backslashes, what is written is what is said. -/
theorem Spells.eq_of_notMem {written said : List Char} (h : Spells written said) (hback : '\\' ∉ written) :
    said = written ∧ '"' ∉ written := by
  induction h with
  | nil => exact ⟨rfl, List.not_mem_nil⟩
  | char hquote _ _ ih =>
    rw [List.mem_cons, not_or] at hback
    obtain ⟨rfl, hnone⟩ := ih hback.2
    exact ⟨rfl, List.not_mem_cons_of_ne_of_not_mem (Ne.symm hquote) hnone⟩
  | escape _ _ _ _ => exact absurd List.mem_cons_self hback

/-- What is said is shorter than what is written where a backslash is. -/
theorem Spells.notMem_of_length_le {written said : List Char} (h : Spells written said)
    (hlength : written.length ≤ said.length) : '\\' ∉ written := by
  induction h with
  | nil => exact List.not_mem_nil
  | char _ hback h ih =>
    exact List.not_mem_cons_of_ne_of_not_mem (Ne.symm hback) (ih (Nat.le_of_succ_le_succ hlength))
  | escape _ _ h _ =>
    have hle := h.length_le
    simp only [List.length_cons, List.cons_append, List.length_append] at hlength
    omega

/-- Each quote in what is written stands after a backslash. -/
theorem Spells.getLast?_of_quote {written said before more : List Char} (h : Spells written said)
    (heq : written = before ++ '"' :: more) : before.getLast? = some '\\' := by
  induction h generalizing before with
  | nil => cases before <;> cases heq
  | @char c _ _ hquote _ h ih =>
    cases before with
    | nil => exact absurd (List.cons.inj heq).1 hquote
    | cons d before =>
      have hlast := ih (List.cons.inj heq).2
      rw [List.getLast?_cons, hlast, Option.getD_some]
  | @escape c first escaped written said hescaped _ h ih =>
    match before with
    | [] => cases heq
    | [d] =>
      obtain ⟨rfl, -⟩ := List.cons.inj heq
      rfl
    | d :: e :: before =>
      obtain ⟨hd, htail⟩ := List.cons.inj heq
      obtain ⟨he, hafter⟩ := List.cons.inj htail
      subst hd he
      rcases List.append_eq_append_iff.mp hafter with ⟨rest, rfl, hrest⟩ | ⟨rest, rfl, hrest⟩
      · have hlast := ih hrest
        rw [← List.cons_append, ← List.cons_append, List.getLast?_append, hlast, Option.some_or]
      · cases rest with
        | nil => cases @ih [] hrest.symm
        | cons f rest =>
          obtain ⟨rfl, -⟩ := List.cons.inj hrest
          exact absurd (List.mem_append_right _ List.mem_cons_self) hescaped

theorem Spells.append_run {run written said : List Char} (hrun : ∀ c ∈ run, isOrdinary c = true)
    (h : Spells written said) : Spells (run ++ written) (run ++ said) := by
  induction run with
  | nil => exact h
  | cons c run ih =>
    obtain ⟨hc, hrun⟩ := List.forall_mem_cons.mp hrun
    refine .char ?_ ?_ (ih hrun)
    · rintro rfl
      exact absurd hc (by decide)
    · rintro rfl
      exact absurd hc (by decide)

theorem Spells.split_run {run written said after more : List Char} (h : Spells written said)
    (hrun : ∀ c ∈ run, isOrdinary c = true) (hmore : written ++ '"' :: after = run ++ more) :
    ∃ written' said', written = run ++ written' ∧ said = run ++ said' ∧ Spells written' said' ∧
      more = written' ++ '"' :: after := by
  induction run generalizing written said with
  | nil => exact ⟨written, said, rfl, rfl, h, hmore.symm⟩
  | cons d run ih =>
    obtain ⟨hd, hordinary⟩ := List.forall_mem_cons.mp hrun
    cases h with
    | nil =>
      obtain ⟨rfl, -⟩ := List.cons.inj hmore
      exact absurd hd (by decide)
    | char _ _ h =>
      obtain ⟨rfl, htail⟩ := List.cons.inj hmore
      obtain ⟨written', said', rfl, rfl, h', rfl⟩ := ih h hordinary htail
      exact ⟨written', said', rfl, rfl, h', rfl⟩
    | escape _ _ _ =>
      obtain ⟨rfl, -⟩ := List.cons.inj hmore
      exact absurd hd (by decide)

section Quote

variable {atLineStart : Bool} {p : Place} {fuel : Nat} {written said after : List Char}

/-- What is read up to a quote is what is spelled there. -/
theorem exists_spells_of_parts {r s : Reading} {ps : List Part} (hunmarked : IsUnmarked r.rest)
    (h : parts .quote atLineStart p fuel r = some (ps, s)) : ∃ written said,
      r.rest = written ++ s.rest ∧ s.rest.head? = some '"' ∧ Part.text? ps = some said ∧
        Spells written said := by
  induction fuel generalizing atLineStart r ps with
  | zero => cases h
  | succ fuel ih =>
    obtain ⟨cs, kept⟩ := r
    by_cases hnext : Closing.isNext .quote atLineStart cs = true
    · rw [parts_next hnext] at h
      obtain ⟨rfl, rfl⟩ := Prod.mk.inj (Option.some.inj h)
      exact ⟨[], [], rfl, of_decide_eq_true hnext, rfl, .nil⟩
    rw [Bool.not_eq_true] at hnext
    cases cs with
    | nil =>
      rw [parts_nil hnext] at h
      cases h
    | cons c cs =>
      have hquote : c ≠ '"' := by
        rintro rfl
        cases hnext
      by_cases hback : c = '\\'
      · subst hback
        cases hescape : takeEscape cs with
        | none =>
          rw [parts_escape_none hescape] at h
          cases h
        | some read =>
          obtain ⟨c, after⟩ := read
          obtain ⟨first, more, rfl, hmore, hc⟩ := takeEscape_eq_some hescape
          rw [parts_escape hescape] at h
          obtain ⟨ps', hps, rfl⟩ := partCons_eq_some_iff.mp h
          obtain ⟨written, said, hrest, hhead, htext, hspells⟩ := ih
            (hunmarked.within ⟨'\\' :: first :: more, [], by simp⟩) hps
          refine ⟨'\\' :: first :: more ++ written, c :: said, ?_, hhead, ?_, .escape hmore hc hspells⟩
          · change after = _ at hrest
            simp only [hrest, List.cons_append, List.append_assoc]
          · rw [Part.text?_cons, htext, Option.map_some, List.singleton_append]
      · obtain ⟨run, more, rfl, hordinary, -, hstep⟩ := parts_run hunmarked hnext (absurd · hback)
        rw [hstep] at h
        obtain ⟨ps', hps, rfl⟩ := partCons_eq_some_iff.mp h
        obtain ⟨written, said, hrest, hhead, htext, hspells⟩ := ih
          (hunmarked.within ⟨c :: run, [], by simp⟩) hps
        refine ⟨c :: run ++ written, c :: run ++ said, ?_, hhead, ?_,
          .char hquote hback (hspells.append_run hordinary)⟩
        · rw [List.append_assoc, ← hrest, List.cons_append]
        · rw [Part.text?_cons, htext, Option.map_some]

/-- What is spelled up to a quote is read there. -/
theorem takes_parts (h : Spells written said) (hunmarked : IsUnmarked (written ++ '"' :: after))
    (hfuel : written.length < fuel) : ∃ ps, Part.text? ps = some said ∧
      Takes (parts .quote atLineStart p fuel) (written ++ '"' :: after) ps ('"' :: after) := by
  induction fuel generalizing atLineStart written said with
  | zero => exact absurd hfuel (Nat.not_lt_zero _)
  | succ fuel ih =>
    cases h with
    | nil => exact ⟨[], rfl, fun kept => ⟨kept, parts_next rfl⟩⟩
    | @escape c first more written said _ hc h =>
      obtain ⟨ps, htext, hps⟩ := @ih false _ _ h (hunmarked.within ⟨'\\' :: first :: more, [], by simp⟩)
        (by simp at hfuel; omega)
      refine ⟨Part.cons [c] ps, by rw [Part.text?_cons, htext]; rfl, fun kept => ?_⟩
      obtain ⟨kept', hps⟩ := hps kept
      refine ⟨kept', ?_⟩
      rw [List.append_assoc, List.cons_append, parts_escape (hc _)]
      exact partCons_eq_some_iff.mpr ⟨ps, hps, rfl⟩
    | @char c written said hquote hback h =>
      have hnext : Closing.isNext .quote atLineStart (c :: (written ++ '"' :: after)) = false := by
        simp [Closing.isNext, hquote]
      obtain ⟨run, more, hmore, hordinary, -, hstep⟩ := parts_run hunmarked hnext (absurd · hback)
      obtain ⟨written, said, rfl, rfl, h, rfl⟩ := h.split_run hordinary hmore
      obtain ⟨ps, htext, hps⟩ := @ih (c = '\n') _ _ h (hunmarked.within ⟨c :: run, [], by simp⟩)
        (by simp at hfuel; omega)
      refine ⟨Part.cons (c :: run) ps, by rw [Part.text?_cons, htext]; rfl, fun kept => ?_⟩
      obtain ⟨kept', hps⟩ := hps ((c :: run).reverse ++ kept)
      exact ⟨kept', (hstep kept).trans (partCons_eq_some_iff.mpr ⟨ps, hps, rfl⟩)⟩

/-- A text between quotes is read as what it spells. -/
theorem takes_quoted (h : Spells written said) (hunmarked : IsUnmarked (written ++ '"' :: after))
    (hfuel : written.length + 1 < fuel) :
    Takes (quoted p fuel) ('"' :: written ++ '"' :: after) (.string (String.ofList said)) after := by
  cases fuel with
  | zero => exact absurd hfuel (Nat.not_lt_zero _)
  | succ fuel =>
    obtain ⟨ps, htext, hps⟩ := @takes_parts false p fuel _ _ _ h hunmarked (by omega)
    have hstring : ofQuoted ps = .string (String.ofList said) := by rw [ofQuoted, htext]
    rw [quoted, ← hstring]
    refine Takes.bind (Takes.withoutKept ?_) ((takes_keep _ _).bind (takes_pure _ _))
    exact (takes_expect ['"'] _).bind (hps.bind ((takes_expect ['"'] _).bind (takes_pure _ _)))

end Quote

/-- What is read between quotes has each property that whatever is spelled between quotes has. -/
theorem yields_quoted {text : List Char} {P : String → Prop} (hunmarked : IsUnmarked text)
    (hP : ∀ written said after, '"' :: written ++ '"' :: after <:+ text → Spells written said →
      P (String.ofList said)) (p : Place) (fuel : Nat) : Yields text (quoted p fuel) (Expression.All P) := by
  cases fuel with
  | zero => exact yields_failure
  | succ fuel =>
    intro r e s hr h
    rw [quoted] at h
    obtain ⟨ps, m, hread, h⟩ := bind_eq_some_iff.mp h
    obtain ⟨u, m', hkeep, h⟩ := bind_eq_some_iff.mp h
    obtain ⟨-, rfl⟩ := Prod.mk.inj (Option.some.inj hkeep)
    obtain ⟨rfl, rfl⟩ := Prod.mk.inj (Option.some.inj h)
    obtain ⟨left, hbetween, rfl⟩ := withoutKept_eq_some_iff.mp hread
    obtain ⟨_, opened, hexpect, hbetween⟩ := bind_eq_some_iff.mp hbetween
    have hopen : r.rest = '"' :: opened.rest := rest_of_expect hexpect
    obtain ⟨ps', ended, hps, hbetween⟩ := bind_eq_some_iff.mp hbetween
    obtain ⟨_, closed, hexpect', hbetween⟩ := bind_eq_some_iff.mp hbetween
    have hclose : ended.rest = '"' :: closed.rest := rest_of_expect hexpect'
    obtain ⟨rfl, rfl⟩ := Prod.mk.inj (Option.some.inj hbetween)
    obtain ⟨written, said, hrest, -, htext, hspells⟩ := exists_spells_of_parts
      (hunmarked.within ((List.suffix_cons '"' _).trans (hopen ▸ hr)).isInfix) hps
    have hr' : '"' :: written ++ '"' :: closed.rest <:+ text := by
      rw [hopen, hrest, hclose] at hr
      exact hr
    refine ⟨?_, (List.suffix_append ('"' :: written ++ ['"']) closed.rest).trans (by simpa using hr')⟩
    rw [ofQuoted, htext]
    exact Expression.all_string (hP written said _ hr' hspells)

/-! ## Between marks -/

/-- Whether a text ends with its line. -/
def EndsLine (cs : List Char) : Prop := cs = [] ∨ cs.getLast? = some '\n'

theorem endsLine_flatMap (margin : Nat) (lines : List (List Char)) :
    EndsLine (lines.flatMap fun l => l.drop margin ++ ['\n']) := by
  rcases List.eq_nil_or_concat lines with rfl | ⟨before, last, rfl⟩
  · exact Or.inl rfl
  · refine Or.inr ?_
    rw [List.concat_eq_append, List.flatMap_append, List.flatMap_singleton, ← List.append_assoc]
    exact List.getLast?_concat

theorem endsLine_unindent {cs : List Char} (h : EndsLine cs) : EndsLine (unindent cs) := by
  rcases h with rfl | h
  · exact Or.inl rfl
  · rw [unindent]
    split
    · exact Or.inr h
    · exact Or.inr h
    · rw [if_pos h]
      exact endsLine_flatMap _ _

section Mark

variable {mark : List Char} {atLineStart : Bool} {p : Place} {fuel : Nat}

/-- What is read up to a mark stands there as it is, and ends with its line. -/
theorem exists_lines_of_parts {r s : Reading} {ps : List Part} (hunmarked : IsUnmarked r.rest)
    (h : parts (.mark mark) atLineStart p fuel r = some (ps, s)) : ∃ said,
      r.rest = said ++ s.rest ∧ Part.text? ps = some said ∧
        (said = [] ∧ atLineStart = true ∨ said.getLast? = some '\n') := by
  induction fuel generalizing atLineStart r ps with
  | zero => cases h
  | succ fuel ih =>
    obtain ⟨cs, kept⟩ := r
    by_cases hnext : Closing.isNext (.mark mark) atLineStart cs = true
    · rw [parts_next hnext] at h
      obtain ⟨rfl, rfl⟩ := Prod.mk.inj (Option.some.inj h)
      exact ⟨[], rfl, rfl, Or.inl ⟨rfl, (Bool.and_eq_true_iff.mp hnext).1⟩⟩
    rw [Bool.not_eq_true] at hnext
    cases cs with
    | nil =>
      rw [parts_nil hnext] at h
      cases h
    | cons c cs =>
      obtain ⟨run, more, rfl, -, hsingle, hstep⟩ := parts_run hunmarked hnext (fun _ => Closing.noConfusion)
      rw [hstep] at h
      obtain ⟨ps', hps, rfl⟩ := partCons_eq_some_iff.mp h
      obtain ⟨said, hrest, htext, hend⟩ := ih (hunmarked.within ⟨c :: run, [], by simp⟩) hps
      refine ⟨c :: run ++ said, ?_, ?_, Or.inr ?_⟩
      · rw [List.append_assoc, ← hrest, List.cons_append]
      · rw [Part.text?_cons, htext, Option.map_some]
      · rcases hend with ⟨rfl, hbreak⟩ | hend
        · obtain rfl := of_decide_eq_true hbreak
          rw [hsingle (by decide)]
          rfl
        · rw [List.getLast?_append, hend, Option.some_or]

end Mark

theorem Part.flatMap_meaning {ps : List Part} {said : List Char} (h : Part.text? ps = some said)
    (hunmarked : IsUnmarked said) : ps.flatMap Part.meaning = said := by
  match ps with
  | [] => exact Option.some.inj h
  | [.literal cs] =>
    obtain rfl := Option.some.inj h
    rw [List.flatMap_singleton, Part.meaning, hunmarked.markText_eq]

/-- What is read on several lines between two marks has each property of all that ends with its line. -/
theorem yields_heredoc {text : List Char} {P : String → Prop} (hunmarked : IsUnmarked text)
    (hP : ∀ cs, EndsLine cs → P (String.ofList cs)) (p : Place) (fuel : Nat) :
    Yields text (heredoc p fuel) (Expression.All P) := by
  cases fuel with
  | zero => exact yields_failure
  | succ fuel =>
    have hparts : ∀ mark, Yields text (parts (.mark mark) true p fuel)
        fun ps => EndsLine (ps.flatMap Part.meaning) := by
      intro mark r ps s hr h
      obtain ⟨said, hrest, htext, hend⟩ := exists_lines_of_parts (hunmarked.within hr.isInfix) h
      have hsaid : IsUnmarked said :=
        hunmarked.within ((List.prefix_append said s.rest).isInfix.trans (hrest ▸ hr.isInfix))
      have hlines : EndsLine (ps.flatMap Part.meaning) := by
        rw [Part.flatMap_meaning htext hsaid]
        exact hend.imp_left And.left
      exact ⟨hlines, (List.suffix_append said s.rest).trans (hrest ▸ hr)⟩
    rw [heredoc]
    refine (yields_expect _).bind fun _ _ => (yields_takeIf _).bind fun flush _ =>
      yields_name.bind fun mark _ => (yields_takeIf _).bind fun _ _ => yields_join (yields_expect _)
      ((hparts _).bind fun ps hps => yields_rest.bind fun _ _ => ?_)
    split
    · refine (yields_advance _).bind fun _ _ => yields_pure (Expression.all_heredoc _ _ (hP _ ?_))
      split
      · exact endsLine_unindent hps
      · exact hps
    · exact yields_failure

end RouteFleet.Hcl
