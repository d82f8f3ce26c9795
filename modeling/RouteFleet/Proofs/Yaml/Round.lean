import RouteFleet.Proofs.Yaml.Style
import RouteFleet.Yaml.Token.Scan

/-! # Rounds of the scanner

Before it takes a token the scanner passes over a gap, gives up spots of keys and ends blocks: this is
`Scan.ready?`. Two scans that are the same by then come to the same end, which `Scan.Leads` says in
general: scanning on from the one ends as scanning on from the other. Leading is transitive, so what
the scanner does with a text can be put together from what it does with its parts.
-/

namespace RouteFleet.Yaml

open Style

namespace Scan

/-! ## One round -/

/-- A scan after all that is done before the next token is taken; `none` if a key was required that
is not there. -/
def ready? (s : Scan) : Option Scan :=
  let s := skipGap (s.cursor.rest.length + 1) s
  (expire s.cursor s.spots).map fun spots => { s with spots := spots }.unroll s.cursor.column

theorem run_succ (fuel : Nat) (s : Scan) : run (fuel + 1) s = (ready? s).bind fun r =>
    match r.cursor.rest with
    | [] => r.finish
    | c :: _ => (r.next c).bind (run fuel) := by
  rw [run, ready?]
  cases expire (skipGap (s.cursor.rest.length + 1) s).cursor
    (skipGap (s.cursor.rest.length + 1) s).spots with
  | none => rfl
  | some spots => rfl

theorem run_of_ready?_eq {s s' : Scan} (h : ready? s = ready? s') (fuel : Nat) :
    run fuel s = run fuel s' := by
  cases fuel with
  | zero => rfl
  | succ fuel => rw [run_succ, run_succ, h]

/-! ## Several rounds -/

/-- Scanning on from `s` ends as scanning on from `s'` does, with as many rounds as are enough. -/
def Leads (s s' : Scan) : Prop :=
  ∀ fuel, s.cursor.rest.length < fuel →
    ∃ fuel', s'.cursor.rest.length < fuel' ∧ run fuel s = run fuel' s'

/-- Scanning on from `s` fails. -/
def Fails (s : Scan) : Prop := ∀ fuel, s.cursor.rest.length < fuel → run fuel s = none

/-- Scanning on from `s` leads to `s'` if `ok` holds, and fails if it does not. -/
def Outcome (ok : Prop) (s s' : Scan) : Prop := (ok → Leads s s') ∧ (¬ ok → Fails s)

theorem Leads.trans {s s' s'' : Scan} (h : Leads s s') (h' : Leads s' s'') : Leads s s'' := by
  intro fuel hfuel
  obtain ⟨fuel', hfuel', heq⟩ := h fuel hfuel
  obtain ⟨fuel'', hfuel'', heq'⟩ := h' fuel' hfuel'
  exact ⟨fuel'', hfuel'', heq.trans heq'⟩

theorem Leads.fails {s s' : Scan} (h : Leads s s') (h' : Fails s') : Fails s := by
  intro fuel hfuel
  obtain ⟨fuel', hfuel', heq⟩ := h fuel hfuel
  exact heq.trans (h' fuel' hfuel')

/-- Scans that are the same when the next token is taken come to the same end. -/
theorem Leads.of_ready?_eq {s s' : Scan} (h : ready? s = ready? s')
    (hlength : s'.cursor.rest.length ≤ s.cursor.rest.length) : Leads s s' :=
  fun fuel hfuel => ⟨fuel, Nat.lt_of_le_of_lt hlength hfuel, run_of_ready?_eq h fuel⟩

/-- A round takes a token. -/
theorem Leads.of_next {s r s' : Scan} {c : Char} {tail : List Char} (hready : ready? s = some r)
    (hrest : r.cursor.rest = c :: tail) (hnext : r.next c = some s')
    (hlength : s'.cursor.rest.length < s.cursor.rest.length) : Leads s s' := by
  intro fuel hfuel
  obtain ⟨fuel, rfl⟩ : ∃ m, fuel = m + 1 := ⟨fuel - 1, by omega⟩
  refine ⟨fuel, by omega, ?_⟩
  rw [run_succ, hready, Option.bind_some, hrest]
  exact congrArg (·.bind (run fuel)) hnext

/-- A round finds no token. -/
theorem Fails.of_next {s r : Scan} {c : Char} {tail : List Char} (hready : ready? s = some r)
    (hrest : r.cursor.rest = c :: tail) (hnext : r.next c = none) : Fails s := by
  intro fuel hfuel
  obtain ⟨fuel, rfl⟩ : ∃ m, fuel = m + 1 := ⟨fuel - 1, by omega⟩
  rw [run_succ, hready, Option.bind_some, hrest]
  exact congrArg (·.bind (run fuel)) hnext

theorem Outcome.of_leads {s s' : Scan} {ok : Prop} (hok : ok) (h : Leads s s') : Outcome ok s s' :=
  ⟨fun _ => h, fun hnot => absurd hok hnot⟩

theorem Leads.outcome {s s' s'' : Scan} {ok : Prop} (h : Leads s s') (h' : Outcome ok s' s'') :
    Outcome ok s s'' :=
  ⟨fun hok => h.trans (h'.1 hok), fun hnot => h.fails (h'.2 hnot)⟩

theorem Outcome.leads {s s' s'' : Scan} {ok : Prop} (h : Outcome ok s s') (h' : Leads s' s'') :
    Outcome ok s s'' :=
  ⟨fun hok => (h.1 hok).trans h', h.2⟩

theorem Outcome.trans {s s' s'' : Scan} {ok ok' : Prop} (h : Outcome ok s s')
    (h' : Outcome ok' s' s'') : Outcome (ok ∧ ok') s s'' := by
  refine ⟨fun hok => (h.1 hok.1).trans (h'.1 hok.2), fun hnot => ?_⟩
  by_cases hok : ok
  · exact (h.1 hok).fails (h'.2 fun hok' => hnot ⟨hok, hok'⟩)
  · exact h.2 hok

theorem Outcome.congr {s s' : Scan} {ok ok' : Prop} (h : Outcome ok s s') (hiff : ok ↔ ok') :
    Outcome ok' s s' :=
  ⟨fun hok => h.1 (hiff.mpr hok), fun hnot => h.2 (mt hiff.mp hnot)⟩

/-! ## Passing over gaps -/

/-- Whether a token may begin here: what stands next, if anything, is not part of a gap, and does not
begin a comment. -/
def Fresh (cs : List Char) : Prop :=
  ∀ c ∈ cs.head?, isBlank c = false ∧ isBreak c = false ∧ c ≠ '#' ∧ c.toNat ≠ 0xfeff

theorem fresh_nil : Fresh [] := fun _ h => nomatch h

theorem fresh_cons {c : Char} {cs : List Char} : Fresh (c :: cs) ↔
    isBlank c = false ∧ isBreak c = false ∧ c ≠ '#' ∧ c.toNat ≠ 0xfeff := by
  simp [Fresh]

theorem Fresh.endsGap {cs : List Char} (h : Fresh cs) : EndsGap cs :=
  fun c hc => ⟨(h c hc).1, (h c hc).2.1⟩

/-- Spaces on the line are passed over. -/
theorem skipGap_spaces {n fuel : Nat} {tail : List Char} (htail : Fresh tail) {s : Scan}
    (h : s.cursor.rest = spaces n ++ tail) :
    skipGap (fuel + 1) s = { s with cursor := s.cursor.pass (spaces n) } := by
  have hmark : s.cursor.at? (·.toNat == 0xfeff) = false := by
    cases n with
    | zero => exact Cursor.at?_eq_false h fun c hc => beq_eq_false_iff_ne.mpr (htail c hc).2.2.2
    | succ n =>
      rw [Cursor.at?_cons h]
      decide
  have hskip := @Cursor.skipWhile_eq_pass
    (fun c => c == ' ' || (c == '\t' && (s.inFlow || !s.keyAllowed))) (spaces n) tail s.cursor h
    (all_spaces rfl n) (noBreak_spaces n) (by
      intro c hc
      have hblank := (htail c hc).1
      simp only [isBlank, Bool.or_eq_false_iff] at hblank
      rw [hblank.1, hblank.2]
      rfl)
  have hrest : (s.cursor.pass (spaces n)).rest = tail := Cursor.rest_pass_of_eq h
  have hat : (s.cursor.pass (spaces n)).at? (· == '#') = false ∧
      (s.cursor.pass (spaces n)).at? isBreak = false :=
    ⟨Cursor.at?_eq_false hrest fun c hc => beq_eq_false_iff_ne.mpr (htail c hc).2.2.1,
      Cursor.at?_eq_false hrest fun c hc => (htail c hc).2.1⟩
  rw [skipGap]
  simp only [hmark, Bool.and_false, Bool.false_eq_true, if_false, hskip, hat.1, hat.2]

/-- The end of a line is passed over with the indentation of the next one, where a key may begin. -/
theorem skipGap_line {n fuel : Nat} {tail : List Char} (htail : Fresh tail) {s : Scan}
    (h : s.cursor.rest = '\n' :: (spaces n ++ tail)) : skipGap (fuel + 2) s =
      { s with cursor := s.cursor.pass ('\n' :: spaces n), keyAllowed := s.keyAllowed || !s.inFlow } := by
  have hmark : s.cursor.at? (·.toNat == 0xfeff) = false := by
    rw [Cursor.at?_cons h]
    decide
  have hskip := @Cursor.skipWhile_eq_pass
    (fun c => c == ' ' || (c == '\t' && (s.inFlow || !s.keyAllowed))) [] _ s.cursor h rfl rfl (by
      intro c hc
      obtain rfl : '\n' = c := by simpa using hc
      rfl)
  have hbreak : s.cursor.at? isBreak = true := by
    rw [Cursor.at?_cons h]
    decide
  have hat : s.cursor.at? (· == '#') = false := by
    rw [Cursor.at?_cons h]
    decide
  have hnext : (s.cursor.pass ['\n']).rest = spaces n ++ tail := Cursor.rest_pass_of_eq h
  rw [skipGap]
  simp only [hmark, Bool.and_false, Bool.false_eq_true, if_false, hskip, Cursor.pass_nil, hat, hbreak,
    if_true, Cursor.skipBreak_eq_pass h rfl]
  rw [skipGap_spaces htail hnext]
  simp [← Cursor.pass_append]

/-! ## Spots of keys -/

/-- Whether a spot may be given up, and was met no later than where the cursor is. -/
def Pending (cur : Cursor) (o : Option KeySpot) : Prop :=
  ∀ spot ∈ o, spot.required = false ∧ spot.line ≤ cur.line

theorem pending_none (cur : Cursor) : Pending cur none := fun _ h => nomatch h

theorem Pending.mono {cur cur' : Cursor} {o : Option KeySpot} (h : Pending cur o)
    (hline : cur.line ≤ cur'.line) : Pending cur' o :=
  fun spot hspot => ⟨(h spot hspot).1, Nat.le_trans (h spot hspot).2 hline⟩

/-- A pending spot stays or is given up. -/
theorem expire_pending {cur : Cursor} {o : Option KeySpot} (h : Pending cur o) :
    ∃ o', Pending cur o' ∧ expire cur [o] = some [o'] := by
  cases o with
  | none => exact ⟨none, pending_none cur, rfl⟩
  | some spot =>
    cases hfits : fits cur spot with
    | true => exact ⟨some spot, h, by simp [expire, hfits]⟩
    | false => exact ⟨none, pending_none cur, by simp [expire, hfits, (h spot rfl).1]⟩

/-- At the end of the line a pending spot is given up. -/
theorem expire_of_line_lt {cur cur' : Cursor} {o : Option KeySpot} (h : Pending cur o)
    (hline : cur.line < cur'.line) : expire cur' [o] = some [none] := by
  cases o with
  | none => rfl
  | some spot =>
    obtain ⟨hfree, hle⟩ := h spot rfl
    have hne : (spot.line == cur'.line) = false := by
      rw [beq_eq_false_iff_ne]
      omega
    simp [expire, fits, hne, hfree]

/-! ## Blocks that end -/

theorem unroll_of_inFlow {s : Scan} (h : s.inFlow = true) (column : Int) :
    s.unroll column = s := by
  rw [unroll, if_pos h]

/-- No block ends where the column is not further out. -/
theorem unroll_of_le {s : Scan} {column : Int} (h : s.indent ≤ column) : s.unroll column = s := by
  cases hflow : s.inFlow with
  | true => exact unroll_of_inFlow hflow column
  | false =>
    have hend : endBlocks column s.outer s.indent s.tokens = (s.tokens, s.indent, s.outer) := by
      cases s.outer with
      | nil => rfl
      | cons i outer => rw [endBlocks, if_neg (by omega)]
    rw [unroll, hflow, if_neg Bool.false_ne_true, hend]

/-- The innermost block ends first. -/
theorem unroll_of_lt {s : Scan} {column i : Int} {outer : List Int} (hflow : s.inFlow = false)
    (houter : s.outer = i :: outer) (h : column < s.indent) : s.unroll column =
      { s with tokens := s.tokens.push .blockEnd, indent := i, outer := outer }.unroll column := by
  have hflow' : ({ s with tokens := s.tokens.push .blockEnd, indent := i, outer := outer } :
    Scan).inFlow = false := hflow
  rw [unroll, unroll, hflow, hflow', if_neg Bool.false_ne_true, if_neg Bool.false_ne_true, houter,
    endBlocks, if_pos h]

/-! ## When a token is taken -/

/-- Where a token may begin, nothing is passed over. -/
theorem ready?_fresh {s : Scan} (hfresh : Fresh s.cursor.rest) {spots : List (Option KeySpot)}
    (hspots : expire s.cursor s.spots = some spots) :
    ready? s = some ({ s with spots := spots }.unroll s.cursor.column) := by
  have hskip := @skipGap_spaces 0 s.cursor.rest.length s.cursor.rest hfresh s rfl
  rw [ready?, hskip]
  simp [hspots]

/-- Where a token may begin and no block ends, nothing is done before it is taken. -/
theorem ready?_self {s : Scan} (hfresh : Fresh s.cursor.rest) (hcolumn : s.indent ≤ s.cursor.column)
    (hspots : expire s.cursor s.spots = some s.spots) : ready? s = some s := by
  rw [ready?_fresh hfresh hspots, unroll_of_le hcolumn]

theorem ready?_spaces {n : Nat} {tail : List Char} (htail : Fresh tail) {s : Scan}
    (h : s.cursor.rest = spaces n ++ tail) {spots : List (Option KeySpot)}
    (hspots : expire (s.cursor.pass (spaces n)) s.spots = some spots) :
    ready? s = some ({ s with cursor := s.cursor.pass (spaces n), spots := spots }.unroll
      (s.cursor.pass (spaces n)).column) := by
  rw [ready?, skipGap_spaces htail h]
  simp [hspots]

theorem ready?_line {n : Nat} {tail : List Char} (htail : Fresh tail) {s : Scan}
    (h : s.cursor.rest = '\n' :: (spaces n ++ tail)) {spots : List (Option KeySpot)}
    (hspots : expire (s.cursor.pass ('\n' :: spaces n)) s.spots = some spots) :
    ready? s = some ({ s with
      cursor := s.cursor.pass ('\n' :: spaces n)
      keyAllowed := s.keyAllowed || !s.inFlow
      spots := spots }.unroll n) := by
  have hlength : s.cursor.rest.length = s.cursor.rest.length - 1 + 1 := by simp [h]
  have hcolumn : (s.cursor.pass ('\n' :: spaces n)).column = n := by
    rw [Cursor.column_pass_break rfl (noBreak_spaces n), length_spaces]
  rw [ready?, hlength, skipGap_line htail h]
  simp [hspots, hcolumn]

/-- After the end of a line no spot is pending and a key may begin. -/
theorem leads_line {n : Nat} {tail : List Char} (htail : Fresh tail) {s : Scan}
    (h : s.cursor.rest = '\n' :: (spaces n ++ tail)) {o : Option KeySpot} (ho : s.spots = [o])
    (hpending : Pending s.cursor o) : Leads s { s with
      cursor := s.cursor.pass ('\n' :: spaces n)
      spots := [none]
      keyAllowed := true } := by
  have hrest : (s.cursor.pass ('\n' :: spaces n)).rest = tail :=
    Cursor.rest_pass_of_eq (by rw [h]; rfl)
  have hline : s.cursor.line < (s.cursor.pass ('\n' :: spaces n)).line := by
    rw [Cursor.line_pass]
    simp [isBreak]
  have hcolumn : (s.cursor.pass ('\n' :: spaces n)).column = n := by
    rw [Cursor.column_pass_break rfl (noBreak_spaces n), length_spaces]
  have hflow : s.inFlow = false := by simp [inFlow, ho]
  refine Leads.of_ready?_eq ?_ ?_
  · rw [ready?_line htail h (ho ▸ expire_of_line_lt hpending hline)]
    rw [@ready?_fresh { s with
      cursor := s.cursor.pass ('\n' :: spaces n)
      spots := [none]
      keyAllowed := true } (hrest.symm ▸ htail) [none] rfl]
    simp [hflow, hcolumn]
  · simp [hrest, h]
    omega

/-- What took the end of the line along has left no spot pending either. -/
theorem leads_broken {s : Scan} (hfresh : Fresh s.cursor.rest) {o : Option KeySpot}
    (ho : s.spots = [o]) {cur : Cursor} (hpending : Pending cur o)
    (hline : cur.line < s.cursor.line) : Leads s { s with spots := [none] } := by
  refine Leads.of_ready?_eq ?_ (Nat.le_refl _)
  rw [ready?_fresh hfresh (ho ▸ expire_of_line_lt hpending hline),
    @ready?_fresh { s with spots := [none] } hfresh [none] rfl]

end Scan

end RouteFleet.Yaml
