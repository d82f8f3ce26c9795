import RouteFleet.Proofs.Yaml.Key

/-! # Scanning blocks

The text that is written for a value at some place inside a collection is scanned into the value's
tokens (`Scan.scans`), unless it has a tag that the scanner does not take. The proof is by recursion on
the value: each kind of block is scanned if its parts are, whatever stands around it.
-/

namespace RouteFleet.Yaml

open Text Style Value Cursor

/-! ## Lines -/

namespace Value

theorem writeAt_ne_nil (place : Value.Place) (inMapping : Bool) (indent : Nat) (v : Value) :
    writeAt place inMapping indent v ≠ [] := by
  cases v with
  | sequence items =>
    rw [writeAt]
    split
    · exact List.cons_ne_nil _ _
    · cases place <;> exact List.cons_ne_nil _ _
  | mapping entries =>
    rw [writeAt]
    split
    · exact List.cons_ne_nil _ _
    · cases place <;> exact List.cons_ne_nil _ _
  | _ => exact List.cons_ne_nil _ _

/-- Between a mark and a value stands a blank, or the value has lines of its own. -/
theorem beginsGap_writeAt (place : Value.Place) (inMapping : Bool) (indent : Nat) (v : Value)
    (tail : List Char) : BeginsGap (writeAt place inMapping indent v ++ tail) := by
  cases v with
  | sequence items =>
    rw [writeAt]
    split
    · exact beginsGap_cons.mpr (.inl rfl)
    · cases place
      · exact beginsGap_cons.mpr (.inr rfl)
      · exact beginsGap_cons.mpr (.inl rfl)
  | mapping entries =>
    rw [writeAt]
    split
    · exact beginsGap_cons.mpr (.inl rfl)
    · cases place
      · exact beginsGap_cons.mpr (.inr rfl)
      · exact beginsGap_cons.mpr (.inl rfl)
  | _ => exact beginsGap_cons.mpr (.inl rfl)

/-- What stands before the first line of a block. -/
def blockLead (place : Value.Place) (indent : Nat) : List Char :=
  match place with
  | .afterMark => [' ']
  | .afterKey => '\n' :: spaces indent

theorem beginBlock_eq (place : Value.Place) (indent : Nat) (lines : List (List Char)) :
    beginBlock place indent lines = blockLead place indent ++ joinLines indent lines := by
  cases place <;> rfl

theorem endLine_cases (cs : List Char) : endLine cs = ['\n'] ∨
    endLine cs = [] ∧ ∃ ds b, cs = ds ++ [b] ∧ isBreak b = true := by
  rw [endLine]
  cases hc : cs.getLast? with
  | none => exact .inl rfl
  | some c =>
    cases hbreak : isBreak c with
    | false => exact .inl (by simp [hbreak])
    | true =>
      obtain ⟨ds, rfl⟩ := List.getLast?_eq_some_iff.mp hc
      exact .inr ⟨by simp [hbreak], ds, c, rfl, hbreak⟩

/-- Some characters with the end of their line, and the indentation of the next one. -/
def lined (cs : List Char) (k : Nat) : List Char := cs ++ (endLine cs ++ spaces k)

theorem lined_append (cs : List Char) {ds : List Char} (hne : ds ≠ []) (k : Nat) :
    lined (cs ++ ds) k = cs ++ lined ds k := by
  rw [lined, lined, endLine_append cs hne, List.append_assoc]

theorem lined_cons (c : Char) {ds : List Char} (hne : ds ≠ []) (k : Nat) :
    lined (c :: ds) k = c :: lined ds k := lined_append [c] hne k

/-- After the end of a line, the indentation of the next one is its column. -/
theorem column_pass_lined (cs : List Char) (k : Nat) (cur : Cursor) :
    (cur.pass (lined cs k)).column = k := by
  rw [lined]
  rcases endLine_cases cs with h | ⟨h, ds, b, rfl, hb⟩
  · rw [h, pass_append, List.singleton_append, column_pass_break rfl (noBreak_spaces k),
      length_spaces]
  · rw [h, List.nil_append, List.append_assoc, pass_append, List.singleton_append,
      column_pass_break hb (noBreak_spaces k), length_spaces]

theorem joinLines_cons (indent : Nat) (cs ds : List Char) (lines : List (List Char)) :
    joinLines indent (cs :: ds :: lines) = lined cs indent ++ joinLines indent (ds :: lines) := by
  simp [joinLines, lined]

theorem joinLines_ne_nil {indent : Nat} {cs : List Char} (hne : cs ≠ []) (lines : List (List Char)) :
    joinLines indent (cs :: lines) ≠ [] := by
  cases lines with
  | nil => exact hne
  | cons ds lines =>
    rw [joinLines_cons, lined]
    simp [hne]

end Value

namespace Scan

/-- A scan at the beginning of a line, after some characters and tokens. -/
def after (cs : List Char) (ts : List Token) (s : Scan) : Scan :=
  { s with
    cursor := s.cursor.pass cs
    tokens := s.tokens ++ ts.toArray
    spots := [none]
    keyAllowed := true }

theorem after_after (cs ds : List Char) (ts us : List Token) (s : Scan) :
    (s.after cs ts).after ds us = s.after (cs ++ ds) (ts ++ us) := by
  simp [after, pass_append]

theorem ready?_after {cs : List Char} {s : Scan} (h : Fresh (s.cursor.pass cs).rest)
    (ts : List Token) :
    ready? (s.after cs ts) = some ((s.after cs ts).unroll (s.cursor.pass cs).column) :=
  ready?_fresh (s := s.after cs ts) h rfl

/-- Whether a value may begin here, in a collection that is indented by `n`. -/
structure At (place : Value.Place) (n : Nat) (s : Scan) : Prop where
  indent : s.indent = n
  column : n ≤ s.cursor.column
  spots : ∃ o, s.spots = [o] ∧ Pending s.cursor o
  mark : place = .afterMark → s.cursor.column = n + 1 ∧ s.spots = [none] ∧ s.keyAllowed = true

/-- Whether a line of a block that is indented by `m`, or of a new block, may begin here. -/
structure AtLine (m : Nat) (s : Scan) : Prop where
  indent : s.indent ≤ m
  column : s.cursor.column = m
  spots : s.spots = [none]
  keyAllowed : s.keyAllowed = true

/-- Whether a value's text at some place is scanned into its tokens, or has a tag that the scanner
does not take. -/
def Scans (place : Value.Place) (inMapping : Bool) (v : Value) : Prop :=
  ∀ ⦃n k : Nat⦄ ⦃s : Scan⦄ ⦃tail : List Char⦄, At place n s → k ≤ n → Fresh tail →
    s.cursor.rest = lined (writeAt place inMapping n v) k ++ tail →
    Outcome (v.allTags isScannable = true) s
      (s.after (lined (writeAt place inMapping n v) k) (v.tokens place inMapping))

/-! ## Leaves and tags -/

theorem scans_leaf {v : Value} (hv : v.isLeaf = true) (place : Value.Place) (inMapping : Bool) :
    Scans place inMapping v := by
  intro n k s tail hat hk htail hrest
  obtain ⟨o, ho, hpending⟩ := hat.spots
  have hne : v.leafText (n + 2) ≠ [] := leafText_ne_nil hv _
  rw [writeAt_leaf hv, lined_cons _ hne] at hrest ⊢
  rw [tokens_leaf hv]
  refine .of_leads (allTags_leaf hv _) ?_
  exact leads_leaf hat.indent hat.column hk hv htail (by rw [hrest, lined]; simp) ho hpending

/-- A tag before a value, on its line. -/
theorem scans_tagged {place : Value.Place} {inMapping : Bool} {content : Value}
    (h : Scans .afterKey inMapping content) (t : String) :
    Scans place inMapping (.tagged t content) := by
  intro n k s tail hat hk htail hrest
  obtain ⟨o, ho, hpending⟩ := hat.spots
  have hne := writeAt_ne_nil .afterKey inMapping n content
  have htext : lined (writeAt place inMapping n (.tagged t content)) k =
      ' ' :: (writeTag t ++ lined (writeAt .afterKey inMapping n content) k) := by
    rw [writeAt, lined_append _ hne]
    rfl
  rw [htext] at hrest ⊢
  replace hrest : s.cursor.rest = spaces 1 ++
      (writeTag t ++ (lined (writeAt .afterKey inMapping n content) k ++ tail)) := by
    rw [hrest]
    simp [spaces]
  have hfresh : Fresh (writeTag t ++ (lined (writeAt .afterKey inMapping n content) k ++ tail)) := by
    obtain ⟨cs, hcs⟩ := exists_writeTag t
    rw [hcs]
    exact fresh_cons.mpr (by decide)
  have hgap : BeginsGap (lined (writeAt .afterKey inMapping n content) k ++ tail) := by
    rw [lined, List.append_assoc]
    exact beginsGap_writeAt _ _ _ _ _
  -- The blank before the tag.
  obtain ⟨o', hpending', hready⟩ := ready?_pending hfresh hrest (by
    rw [hat.indent]
    exact Int.ofNat_le.mpr hat.column) ho hpending
  generalize hr : ({ s with cursor := s.cursor.pass (spaces 1), spots := [o'] } : Scan) = r at hready
  have hcursor : r.cursor = s.cursor.pass (spaces 1) := by rw [← hr]
  have hspots : r.spots = [o'] := by rw [← hr]
  have hindent : r.indent = n := by rw [← hr]; exact hat.indent
  have hcolumn : n < r.cursor.column := by
    rw [hcursor, column_pass_of_noBreak (noBreak_spaces 1)]
    exact Nat.lt_succ_of_le hat.column
  have hafter : r.cursor.rest =
      writeTag t ++ (lined (writeAt .afterKey inMapping n content) k ++ tail) := by
    rw [hcursor]
    exact rest_pass_of_eq hrest
  rw [← hcursor] at hpending'
  -- The tag.
  have htag := outcome_tag hready (by rw [hcursor]; exact length_rest_pass_le _ _) hgap hafter hspots
    (fun _ => hpending')
  obtain ⟨o'', hspots', hpending''⟩ := pending_withSpot hspots hpending' (by omega)
  rw [withSpot_eq hspots'] at htag
  -- What it is the tag of.
  have hcontent := h (s := { r with
    cursor := r.cursor.pass (writeTag t)
    tokens := r.tokens.push (Token.ofTag t)
    spots := [o'']
    keyAllowed := false }) ⟨hindent,
      Nat.le_trans (Nat.le_of_lt hcolumn) (column_le_pass_of_noBreak (noBreak_writeTag t) _),
      ⟨o'', rfl, hpending''.mono (line_le_pass _ _)⟩, fun h => by cases h⟩ hk htail
    (rest_pass_of_eq hafter)
  have hend : ({ r with
      cursor := r.cursor.pass (writeTag t)
      tokens := r.tokens.push (Token.ofTag t)
      spots := [o'']
      keyAllowed := false } : Scan).after (lined (writeAt .afterKey inMapping n content) k)
        (content.tokens .afterKey inMapping) =
      s.after (' ' :: (writeTag t ++ lined (writeAt .afterKey inMapping n content) k))
        (Value.tokens place inMapping (.tagged t content)) := by
    simp only [after, ← pass_append, ← hr, Value.tokens]
    simp [spaces]
  rw [hend] at hcontent
  exact (htag.trans hcontent).congr (by simp [allTags])

/-! ## Lines of blocks -/

theorem AtLine.inFlow {m : Nat} {s : Scan} (h : AtLine m s) : s.inFlow = false :=
  inFlow_eq_false h.spots

@[simp] theorem roll_cursor (column : Nat) (place : Option Nat) (t : Token) (s : Scan) :
    (s.roll column place t).cursor = s.cursor := by
  unfold roll
  split <;> rfl

@[simp] theorem roll_spots (column : Nat) (place : Option Nat) (t : Token) (s : Scan) :
    (s.roll column place t).spots = s.spots := by
  unfold roll
  split <;> rfl

theorem AtLine.roll_indent {m : Nat} {s : Scan} (h : AtLine m s) (t : Token) :
    (s.roll m none t).indent = m := by
  have hle := h.indent
  rw [roll, h.inFlow]
  split
  · rfl
  · rename_i hnot
    simp at hnot
    omega

/-- In a block that has begun no other begins. -/
theorem roll_of_le {column : Nat} {place : Option Nat} {t : Token} {s : Scan}
    (h : column ≤ s.indent) : s.roll column place t = s := by
  unfold roll
  rw [if_neg]
  simp
  omega

/-- The next line of a block begins where the last one has ended. -/
theorem AtLine.next {m : Nat} {s : Scan} (h : AtLine m s) (t : Token) (cs : List Char)
    (ts : List Token) : AtLine m ((s.roll m none t).after (lined cs m) ts) :=
  ⟨Int.le_of_eq (h.roll_indent t), column_pass_lined cs m _, rfl, rfl⟩

/-- Whether a text that stands in a block, of which `t` marks the beginning, is scanned into `ts`;
this fails unless `ok` holds. The text is indented as the block is. -/
def ScansText (t : Token) (text : Nat → List Char) (ok : Prop) (ts : List Token) : Prop :=
  ∀ ⦃m k : Nat⦄ ⦃s : Scan⦄ ⦃tail : List Char⦄, AtLine m s → k ≤ m → Fresh tail →
    s.cursor.rest = lined (text m) k ++ tail →
    Outcome ok s ((s.roll m none t).after (lined (text m) k) ts)

theorem ScansText.congr {t : Token} {text : Nat → List Char} {ok ok' : Prop} {ts : List Token}
    (h : ScansText t text ok ts) (hiff : ok ↔ ok') : ScansText t text ok' ts :=
  fun _ _ _ _ hat hk htail hrest => (h hat hk htail hrest).congr hiff

/-- Lines of one block, one after another. -/
theorem ScansText.append {t : Token} {text text' : Nat → List Char} {ok ok' : Prop}
    {ts ts' : List Token} (h : ScansText t text ok ts) (h' : ScansText t text' ok' ts')
    (hne : ∀ m, text' m ≠ []) (hfresh : ∀ m tail, Fresh (text' m ++ tail)) :
    ScansText t (fun m => lined (text m) m ++ text' m) (ok ∧ ok') (ts ++ ts') := by
  intro m k s tail hat hk htail hrest
  rw [lined_append _ (hne m), List.append_assoc] at hrest
  have hfresh' : Fresh (lined (text' m) k ++ tail) := by
    rw [lined, List.append_assoc]
    exact hfresh m _
  have hfirst := h hat (Nat.le_refl m) hfresh' hrest
  have hnext := hat.next t (text m) ts
  have hsecond := h' hnext hk htail (by
    show ((s.roll m none t).cursor.pass _).rest = _
    rw [roll_cursor]
    exact rest_pass_of_eq hrest)
  have hroll : ((s.roll m none t).after (lined (text m) m) ts).roll m none t =
      (s.roll m none t).after (lined (text m) m) ts :=
    roll_of_le (Int.le_of_eq (hat.roll_indent t).symm)
  rw [hroll, after_after, ← lined_append _ (hne m)] at hsecond
  exact hfirst.trans hsecond

/-! ## Marks -/

/-- The marks with which lines begin, the blocks to which the lines belong and the marks' tokens. -/
inductive LineMark : Char → Token → Token → Prop
  | item : LineMark '-' .blockSequenceStart .blockEntry
  | key : LineMark '?' .blockMappingStart .key
  | value : LineMark ':' .blockMappingStart .value

theorem leads_lineMark {c : Char} {t u : Token} (h : LineMark c t u) {m : Nat} {s : Scan}
    (hat : AtLine m s) {tail : List Char} (htail : BeginsGap tail)
    (hrest : s.cursor.rest = c :: tail) : Leads s ((s.roll m none t).after [c] [u]) := by
  have hmark : s.cursor.atDocumentMark = false := by
    cases h with
    | item =>
      cases tail with
      | nil => simp [Cursor.atDocumentMark, hrest, List.isPrefixOf]
      | cons d tail =>
        refine atDocumentMark_of_dash hrest ?_
        rintro rfl
        exact absurd (beginsGap_cons.mp htail) (by decide)
    | key => exact atDocumentMark_of_head hrest (by decide) (by decide)
    | value => exact atDocumentMark_of_head hrest (by decide) (by decide)
  have hgap : s.cursor.gapAt 1 = true := @gapAt_eq_true [c] _ htail _ hrest
  have hbreak : isBreak c = false := by cases h <;> decide
  have hready : ready? s = some s := by
    refine ready?_self (hrest ▸ fresh_cons.mpr ?_) (hat.column ▸ hat.indent) (by rw [hat.spots]; rfl)
    cases h <;> decide
  have hspots : (s.roll m none t).spots = [none] := (roll_spots m none t s).trans hat.spots
  have hskip := skip_one_eq_pass hrest hbreak
  have hnext : s.next c = some ((s.roll m none t).after [c] [u]) := by
    cases h with
    | item =>
      have hdrop := dropSpot_eq hspots (pending_none _)
      simp [next, hmark, hgap, blockEntry, hat.inFlow, hat.keyAllowed, hat.column, hdrop, allowKey,
        emitMark, after, hskip]
    | key =>
      have hdrop := dropSpot_eq hspots (pending_none _)
      simp [next, hmark, hgap, keyMark, hat.inFlow, hat.keyAllowed, hat.column, hdrop, allowKey,
        emitMark, after, hskip]
      rfl
    | value =>
      simp [next, hmark, hgap, valueMark, hat.spots, hat.inFlow, hat.keyAllowed, hat.column, allowKey,
        emitMark, after, hskip]
      exact inFlow_eq_false hspots
  refine Leads.of_next hready hrest hnext ?_
  show ((s.roll m none t).cursor.pass [c]).rest.length < _
  rw [roll_cursor]
  exact @length_rest_pass_lt [c] _ _ hrest (List.cons_ne_nil _ _)

/-- A mark with a value after it. -/
theorem scansText_mark {c : Char} {t u : Token} (h : LineMark c t u) {inMapping : Bool} {v : Value}
    (hv : Scans .afterMark inMapping v) :
    ScansText t (fun m => c :: writeAt .afterMark inMapping m v) (v.allTags isScannable = true)
      (u :: v.tokens .afterMark inMapping) := by
  intro m k s tail hat hk htail hrest
  rw [lined_cons _ (writeAt_ne_nil _ _ _ _)] at hrest ⊢
  have hgap : BeginsGap (lined (writeAt .afterMark inMapping m v) k ++ tail) := by
    rw [lined, List.append_assoc]
    exact beginsGap_writeAt _ _ _ _ _
  have hleads := leads_lineMark h hat hgap hrest
  have hbreak : isBreak c = false := by cases h <;> decide
  have hcolumn : ((s.roll m none t).cursor.pass [c]).column = m + 1 := by
    rw [roll_cursor, column_pass_of_noBreak (by simp [hbreak]), hat.column]
    rfl
  have hat' : At .afterMark m ((s.roll m none t).after [c] [u]) :=
    ⟨hat.roll_indent t, by rw [after, hcolumn]; exact Nat.le_succ m, ⟨none, rfl, pending_none _⟩,
      fun _ => ⟨hcolumn, rfl, rfl⟩⟩
  have hvalue := hv hat' hk htail (by
    show ((s.roll m none t).cursor.pass [c]).rest = _
    rw [roll_cursor]
    exact @rest_pass_of_eq [c] _ _ hrest)
  rw [after_after] at hvalue
  exact hleads.outcome hvalue

/-! ## Entries and items -/

/-- An entry whose key stands before its colon. -/
theorem scansText_keyEntry {k v : Value} (hkey : isSimpleKey 0 k = true)
    (hv : Scans .afterKey true v) : ScansText .blockMappingStart
      (fun m => k.keyText (m + 2) ++ ':' :: writeAt .afterKey true m v)
      (k.allTags isScannable = true ∧ v.allTags isScannable = true)
      (.key :: k.tokens .afterKey true ++ (.value :: v.tokens .afterKey true)) := by
  intro m j s tail hat hj htail hrest
  have hne := writeAt_ne_nil .afterKey true m v
  rw [lined_append _ (List.cons_ne_nil _ _), lined_cons _ hne] at hrest ⊢
  have hgap : BeginsGap (lined (writeAt .afterKey true m v) j ++ tail) := by
    rw [lined, List.append_assoc]
    exact beginsGap_writeAt _ _ _ _ _
  rw [List.append_assoc, List.cons_append] at hrest
  have houtcome := outcome_key (Nat.succ_ne_zero (m + 1)) (hat.column ▸ hat.indent) hkey hgap hrest
    hat.spots hat.keyAllowed
  have hline : (k.keyText (m + 2) ++ [':']).all (!isBreak ·) = true := by
    rw [List.all_append, noBreak_keyText _ hkey]
    rfl
  generalize hs' : ({ s.roll s.cursor.column none .blockMappingStart with
    cursor := _, tokens := _, spots := _, keyAllowed := _ } : Scan) = s' at houtcome
  have hcursor : s'.cursor = s.cursor.pass (k.keyText (m + 2) ++ [':']) := by rw [← hs']
  have hindent : s'.indent = m := by
    rw [← hs', hat.column]
    exact hat.roll_indent _
  have hcolumn : m ≤ s'.cursor.column := by
    rw [hcursor]
    exact Nat.le_trans (Nat.le_of_eq hat.column.symm) (column_le_pass_of_noBreak hline _)
  have hat' : At .afterKey m s' :=
    ⟨hindent, hcolumn, ⟨none, by rw [← hs'], pending_none _⟩, fun h => nomatch h⟩
  have hvalue := hv hat' hj htail (by
    rw [hcursor]
    exact rest_pass_of_eq (by rw [hrest]; simp))
  have hend : s'.after (lined (writeAt .afterKey true m v) j) (v.tokens .afterKey true) =
      (s.roll m none .blockMappingStart).after
        (k.keyText (m + 2) ++ ':' :: lined (writeAt .afterKey true m v) j)
        (.key :: k.tokens .afterKey true ++ (.value :: v.tokens .afterKey true)) := by
    rw [← hs', hat.column]
    simp only [after, roll_cursor, ← pass_append]
    simp
  rw [hend] at hvalue
  exact houtcome.trans hvalue

theorem scansText_entry {k v : Value} (hk : Scans .afterMark true k)
    (hv : Scans (placeOf k) true v) : ScansText .blockMappingStart
      (fun m => writeEntry m (placeOf k) (writeAt (placeOf k) true m k) (writeAt (placeOf k) true m v))
      (k.allTags isScannable = true ∧ v.allTags isScannable = true)
      (.key :: k.tokens (placeOf k) true ++ (.value :: v.tokens (placeOf k) true)) := by
  by_cases hkey : isSimpleKey 0 k = true
  · have hplace : placeOf k = .afterKey := by rw [placeOf, if_pos hkey]
    rw [hplace] at hv ⊢
    have htext := scansText_keyEntry hkey hv
    have heq : ∀ m, writeEntry m .afterKey (writeAt .afterKey true m k) (writeAt .afterKey true m v) =
        k.keyText (m + 2) ++ ':' :: writeAt .afterKey true m v := by
      intro m
      rw [writeAt_key true m hkey]
      rfl
    simpa only [heq] using htext
  · have hplace : placeOf k = .afterMark := by rw [placeOf, if_neg hkey]
    rw [hplace] at hv ⊢
    have htext := (scansText_mark .key hk).append (scansText_mark .value hv)
      (fun _ => List.cons_ne_nil _ _) (fun _ _ => fresh_cons.mpr (by decide))
    have heq : ∀ m, writeEntry m .afterMark (writeAt .afterMark true m k)
        (writeAt .afterMark true m v) = lined ('?' :: writeAt .afterMark true m k) m ++
          ':' :: writeAt .afterMark true m v := by
      intro m
      exact joinLines_cons m _ _ []
    simpa only [heq] using htext

/-! ## Values -/

/-- Where a value that is a block may begin, the first line of the block begins. -/
theorem leads_blockLead {place : Value.Place} {n inner : Nat} {s : Scan} (hat : At place n s)
    (hinner : inner = n + 2 ∨ inner = n ∧ place = .afterKey) {tail : List Char} (htail : Fresh tail)
    (hrest : s.cursor.rest = blockLead place inner ++ tail) :
    Leads s (s.after (blockLead place inner) []) ∧
      AtLine inner (s.after (blockLead place inner) []) := by
  have hindent : s.indent ≤ inner := by
    rw [hat.indent]
    omega
  cases place with
  | afterKey =>
    obtain ⟨o, ho, hpending⟩ := hat.spots
    refine ⟨?_, hindent, ?_, rfl, rfl⟩
    · simpa [after, blockLead] using leads_line htail hrest ho hpending
    · show (s.cursor.pass ('\n' :: spaces inner)).column = inner
      rw [column_pass_break rfl (noBreak_spaces inner), length_spaces]
  | afterMark =>
    obtain ⟨hcolumn, hspots, hallowed⟩ := hat.mark rfl
    have hpass : (s.cursor.pass [' ']).column = inner := by
      rw [@column_pass_of_noBreak [' '] rfl, hcolumn]
      simp at hinner
      exact hinner.symm
    have hlast : (s.cursor.pass [' ']).rest = tail := @rest_pass_of_eq [' '] _ _ hrest
    refine ⟨Leads.of_ready?_eq ?_ (length_rest_pass_le _ _), hindent, hpass, rfl, rfl⟩
    have hexpire : expire (s.cursor.pass (spaces 1)) s.spots = some [none] := by
      rw [hspots]
      rfl
    rw [ready?_spaces (n := 1) htail hrest hexpire, @ready?_after (blockLead .afterMark inner) _
      (hlast ▸ htail)]
    simp [after, blockLead, spaces, hallowed]

/-- Where a block is further in than what stands around it, its end shows at the next line. -/
theorem leads_blockEnd {t : Token} {m n : Nat} {s : Scan} (hindent : s.indent = n) (hlt : n < m)
    (hspots : s.spots = [none]) {cs : List Char} {k : Nat} (hk : k ≤ n) (ts : List Token)
    (htail : Fresh (s.cursor.pass (lined cs k)).rest) :
    Leads ((s.roll m none t).after (lined cs k) ts)
      (s.after (lined cs k) (t :: ts ++ [.blockEnd])) := by
  have hroll : s.roll m none t =
      { s with outer := s.indent :: s.outer, indent := m, tokens := s.tokens.push t } := by
    unfold roll
    rw [inFlow_eq_false hspots, if_pos]
    simp
    omega
  have hcolumn := column_pass_lined cs k s.cursor
  rw [hroll]
  refine Leads.of_ready?_eq ?_ (Nat.le_refl _)
  rw [ready?_after htail, ready?_after (s := { s with
    outer := s.indent :: s.outer, indent := m, tokens := s.tokens.push t }) htail]
  rw [@unroll_of_lt (after _ _ _) _ s.indent s.outer rfl rfl]
  · simp [after]
  · show ((s.cursor.pass (lined cs k)).column : Int) < m
    omega

/-- A block inside a collection. -/
theorem outcome_block {place : Value.Place} {n inner : Nat} {s : Scan} (hat : At place n s)
    (hinner : inner = n + 2 ∨ inner = n ∧ place = .afterKey) {t : Token} {text : Nat → List Char}
    {ok : Prop} {ts : List Token} (h : ScansText t text ok ts) (hne : text inner ≠ [])
    (hfresh : ∀ tail, Fresh (text inner ++ tail)) {k : Nat} (hk : k ≤ n) {tail : List Char}
    (htail : Fresh tail)
    (hrest : s.cursor.rest = lined (blockLead place inner ++ text inner) k ++ tail) :
    Outcome ok s (s.after (lined (blockLead place inner ++ text inner) k)
      (if inner = n then ts else t :: ts ++ [.blockEnd])) := by
  rw [lined_append _ hne] at hrest ⊢
  rw [List.append_assoc] at hrest
  have hfresh' : Fresh (lined (text inner) k ++ tail) := by
    rw [lined, List.append_assoc]
    exact hfresh _
  obtain ⟨hlead, hline⟩ := leads_blockLead hat hinner hfresh' hrest
  have hafter : (s.cursor.pass (blockLead place inner)).rest = lined (text inner) k ++ tail :=
    rest_pass_of_eq hrest
  have hlines := hlead.outcome (h hline (by omega) htail hafter)
  by_cases heq : inner = n
  · rw [if_pos heq]
    have hroll : (s.after (blockLead place inner) []).roll inner none t =
        s.after (blockLead place inner) [] := roll_of_le (by
      show (inner : Int) ≤ s.indent
      exact Int.le_of_eq (by rw [hat.indent, heq]))
    rw [hroll, after_after] at hlines
    exact hlines
  · rw [if_neg heq]
    have hend := @leads_blockEnd t inner n (s.after (blockLead place inner) []) hat.indent (by omega)
      rfl (text inner) k hk ts (by
        show Fresh ((s.cursor.pass _).pass _).rest
        rw [rest_pass_of_eq hafter]
        exact htail)
    rw [after_after] at hend
    exact hlines.leads hend

/-! ## Putting the parts together -/

/-- Whether the items of a sequence are scanned into their tokens, unless there are none. -/
def ScansItems (items : List Value) : Prop :=
  items ≠ [] → ScansText .blockSequenceStart (fun m => joinLines m (itemLines m items))
    (allTagsOfItems isScannable items = true) (itemTokens items)

/-- Whether the entries of a mapping are scanned into their tokens, unless there are none. -/
def ScansEntries (entries : List (Value × Value)) : Prop :=
  entries ≠ [] → ScansText .blockMappingStart (fun m => joinLines m (entryLines m entries))
    (allTagsOfEntries isScannable entries = true) (entryTokens entries)

theorem fresh_joinLines {cs : List Char} (h : ∀ tail, Fresh (cs ++ tail)) (m : Nat)
    (lines : List (List Char)) (tail : List Char) : Fresh (joinLines m (cs :: lines) ++ tail) := by
  cases lines with
  | nil => exact h tail
  | cons ds lines =>
    rw [joinLines_cons, lined, List.append_assoc, List.append_assoc]
    exact h _

theorem fresh_entryLine (m : Nat) (k v : Value) (tail : List Char) :
    Fresh (writeEntry m (placeOf k) (writeAt (placeOf k) true m k) (writeAt (placeOf k) true m v) ++
      tail) := by
  by_cases hkey : isSimpleKey 0 k = true
  · rw [placeOf, if_pos hkey, writeEntry, writeAt_key true m hkey, List.append_assoc]
    exact fresh_keyText _ _ hkey
  · rw [placeOf, if_neg hkey]
    exact fresh_joinLines (fun _ => fresh_cons.mpr (by decide)) m _ tail

theorem entryLine_ne_nil (m : Nat) (place : Value.Place) (key value : List Char) :
    writeEntry m place key value ≠ [] := by
  cases place with
  | afterKey => simp [writeEntry]
  | afterMark => exact joinLines_ne_nil (List.cons_ne_nil _ _) _

theorem scansItems_cons {v : Value} {rest : List Value} (hv : Scans .afterMark false v)
    (h : ScansItems rest) : ScansItems (v :: rest) := by
  intro _
  have hitem := scansText_mark .item hv
  cases rest with
  | nil => simpa [itemLines, joinLines, allTagsOfItems, itemTokens] using hitem
  | cons w rest =>
    have htext := hitem.append (h (List.cons_ne_nil _ _)) (by
      intro m
      rw [itemLines]
      exact joinLines_ne_nil (List.cons_ne_nil _ _) _) (by
      intro m tail
      rw [itemLines]
      exact fresh_joinLines (fun _ => fresh_cons.mpr (by decide)) _ _ _)
    have heq : ∀ m, joinLines m (itemLines m (v :: w :: rest)) =
        lined ('-' :: writeAt .afterMark false m v) m ++ joinLines m (itemLines m (w :: rest)) := by
      intro m
      rw [itemLines, itemLines]
      exact joinLines_cons _ _ _ _
    simp only [heq]
    rw [itemTokens]
    exact htext.congr (by rw [← Bool.and_eq_true]; rfl)

theorem scansEntries_cons {k v : Value} {rest : List (Value × Value)} (hk : Scans .afterMark true k)
    (hv : Scans (placeOf k) true v) (h : ScansEntries rest) : ScansEntries ((k, v) :: rest) := by
  intro _
  have hentry := scansText_entry hk hv
  cases rest with
  | nil => simpa [entryLines, joinLines, allTagsOfEntries, entryTokens] using hentry
  | cons w rest =>
    have htext := hentry.append (h (List.cons_ne_nil _ _)) (by
      intro m
      rw [entryLines]
      exact joinLines_ne_nil (entryLine_ne_nil _ _ _ _) _) (by
      intro m tail
      rw [entryLines]
      exact fresh_joinLines (fresh_entryLine m _ _) _ _ _)
    have heq : ∀ m, joinLines m (entryLines m ((k, v) :: w :: rest)) =
        lined (writeEntry m (placeOf k) (writeAt (placeOf k) true m k)
          (writeAt (placeOf k) true m v)) m ++ joinLines m (entryLines m (w :: rest)) := by
      intro m
      rw [entryLines, entryLines]
      exact joinLines_cons _ _ _ _
    simp only [heq]
    have htokens : entryTokens ((k, v) :: w :: rest) =
        .key :: k.tokens (placeOf k) true ++ (.value :: v.tokens (placeOf k) true) ++
          entryTokens (w :: rest) := by
      rw [entryTokens]
      simp
    rw [htokens]
    exact htext.congr (by rw [← Bool.and_eq_true, ← Bool.and_eq_true]; rfl)

theorem scans_sequence {items : List Value} (h : ScansItems items) (place : Value.Place)
    (inMapping : Bool) : Scans place inMapping (.sequence items) := by
  cases items with
  | nil => exact scans_leaf rfl place inMapping
  | cons item items =>
    intro n k s tail hat hk htail hrest
    -- The items of a sequence are not indented below its key.
    obtain ⟨inner, hinner, htext, htokens⟩ : ∃ inner, (inner = n + 2 ∨ inner = n ∧ place = .afterKey) ∧
        writeAt place inMapping n (.sequence (item :: items)) =
          blockLead place inner ++ joinLines inner (itemLines inner (item :: items)) ∧
        Value.tokens place inMapping (.sequence (item :: items)) =
          if inner = n then itemTokens (item :: items)
          else .blockSequenceStart :: itemTokens (item :: items) ++ [.blockEnd] := by
      by_cases hflush : (inMapping && place = .afterKey) = true
      · have hplace : place = .afterKey :=
          of_decide_eq_true ((Bool.and_eq_true_iff.mp hflush).2)
        refine ⟨n, .inr ⟨rfl, hplace⟩, ?_, ?_⟩
        · rw [writeAt, if_pos hflush]
          exact beginBlock_eq _ _ _
        · rw [Value.tokens, if_pos hflush, if_pos rfl]
          rfl
      · refine ⟨n + 2, .inl rfl, ?_, ?_⟩
        · rw [writeAt, if_neg hflush]
          exact beginBlock_eq _ _ _
        · have hne : n + 2 ≠ n := by omega
          rw [if_neg hne, Value.tokens, if_neg hflush]
          rfl
    rw [htext] at hrest ⊢
    rw [htokens]
    have hne : joinLines inner (itemLines inner (item :: items)) ≠ [] := by
      rw [itemLines]
      exact joinLines_ne_nil (List.cons_ne_nil _ _) _
    refine outcome_block hat hinner (h (List.cons_ne_nil _ _)) hne ?_ hk htail hrest
    intro tail
    rw [itemLines]
    exact fresh_joinLines (fun _ => fresh_cons.mpr (by decide)) _ _ _

theorem scans_mapping {entries : List (Value × Value)} (h : ScansEntries entries) (place : Value.Place)
    (inMapping : Bool) : Scans place inMapping (.mapping entries) := by
  cases entries with
  | nil => exact scans_leaf rfl place inMapping
  | cons entry entries =>
    intro n k s tail hat hk htail hrest
    have htext : writeAt place inMapping n (.mapping (entry :: entries)) =
        blockLead place (n + 2) ++ joinLines (n + 2) (entryLines (n + 2) (entry :: entries)) := by
      rw [writeAt]
      exact beginBlock_eq _ _ _
    have htokens : Value.tokens place inMapping (.mapping (entry :: entries)) =
        if n + 2 = n then entryTokens (entry :: entries)
        else .blockMappingStart :: entryTokens (entry :: entries) ++ [.blockEnd] := by
      rw [if_neg (by omega), Value.tokens]
      rfl
    rw [htext] at hrest ⊢
    rw [htokens]
    have hne : joinLines (n + 2) (entryLines (n + 2) (entry :: entries)) ≠ [] := by
      rw [entryLines]
      exact joinLines_ne_nil (entryLine_ne_nil _ _ _ _) _
    refine outcome_block hat (.inl rfl) (h (List.cons_ne_nil _ _)) hne ?_ hk htail hrest
    intro tail
    rw [entryLines]
    exact fresh_joinLines (fresh_entryLine _ _ _) _ _ _

mutual

/-- The text of a value is scanned into its tokens, unless it has a tag that the scanner does not
take. -/
theorem scans (place : Value.Place) (inMapping : Bool) : ∀ v : Value, Scans place inMapping v
  | .tagged t content => scans_tagged (scans .afterKey inMapping content) t
  | .sequence items => scans_sequence (scansItems items) place inMapping
  | .mapping entries => scans_mapping (scansEntries entries) place inMapping
  | .null => scans_leaf rfl place inMapping
  | .bool _ => scans_leaf rfl place inMapping
  | .number _ => scans_leaf rfl place inMapping
  | .string _ => scans_leaf rfl place inMapping

theorem scansItems : ∀ items : List Value, ScansItems items
  | [] => fun h => absurd rfl h
  | v :: rest => scansItems_cons (scans .afterMark false v) (scansItems rest)

theorem scansEntries : ∀ entries : List (Value × Value), ScansEntries entries
  | [] => fun h => absurd rfl h
  | (k, v) :: rest =>
    scansEntries_cons (scans .afterMark true k) (scans (placeOf k) true v) (scansEntries rest)

end

end Scan

end RouteFleet.Yaml
