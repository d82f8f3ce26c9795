import RouteFleet.Proofs.Yaml.Size

/-! # Scanning keys

A key on one line shows only at its colon. The scanner remembers where it began until then
(`Scan.outcome_keyText`), and so puts the mark of the key before its tokens (`Scan.outcome_key`).
-/

namespace RouteFleet.Yaml

open Text Style Value Cursor

/-! ## On one line -/

theorem Token.noBreak_writeTagName (cs : List Char) :
    (writeTagName cs).all (!isBreak ·) = true := by
  rw [List.all_eq_true]
  intro d hd
  rw [writeTagName_eq, List.mem_flatMap] at hd
  obtain ⟨c, -, hd⟩ := hd
  rw [Bool.not_eq_true', Bool.eq_false_iff]
  intro hbreak
  have hgap := mem_gapChars (.inr hbreak)
  rcases writeTagChar_cases c with ⟨heq, htag⟩ | heq
  · obtain rfl : d = c := by simpa [heq] using hd
    have hnot : ∀ c ∈ gapChars, isTagChar c = false := by
      have hall : gapChars.all (!isTagChar ·) = true := by decide
      simpa only [List.all_eq_true, Bool.not_eq_true'] using hall
    exact Bool.false_ne_true ((hnot d hgap).symm.trans htag)
  · obtain ⟨b, -, hd⟩ := List.mem_flatMap.mp (heq ▸ hd)
    have hnot : ∀ c ∈ gapChars, c ≠ '%' ∧ isAlnum c = false := by
      have hall : gapChars.all (fun c => c != '%' && !isAlnum c) = true := by decide
      simpa only [List.all_eq_true, Bool.and_eq_true, bne_iff_ne, Bool.not_eq_true'] using hall
    rcases mem_escapeByte hd with rfl | halnum
    · exact (hnot _ hgap).1 rfl
    · exact Bool.false_ne_true ((hnot d hgap).2.symm.trans halnum)

theorem Style.noBreak_write {s : String} {st : Style} (hst : st ≠ .literal)
    (h : s.toList.all (!isBreak ·) = true) (indent : Nat) :
    (write indent s st).all (!isBreak ·) = true := by
  cases st with
  | plain => exact h
  | singleQuoted =>
    have hbody : ∀ cs : List Char, cs.all (!isBreak ·) = true →
        (singleQuotedBody indent false cs).all (!isBreak ·) = true := by
      intro cs hcs
      induction cs with
      | nil => rfl
      | cons c cs ih =>
        rw [List.all_cons, Bool.and_eq_true] at hcs
        have hc := Bool.not_eq_true' _ ▸ hcs.1
        rw [singleQuotedBody, hc, if_neg Bool.false_ne_true, List.all_append, ih hcs.2]
        by_cases hquote : c = '\x27'
        · subst hquote
          rfl
        · simp [hquote, hc]
    rw [write, List.cons_append, List.all_cons, List.all_append, hbody _ h]
    rfl
  | doubleQuoted =>
    have hbody : (s.toList.flatMap escapeChar).all (!isBreak ·) = true := by
      rw [List.all_eq_true]
      intro d hd
      obtain ⟨c, hc, hd⟩ := List.mem_flatMap.mp hd
      rcases Scalar.escapeChar_cases c with ⟨heq, -⟩ | ⟨e, es, heq, hes, -⟩
      · obtain rfl : d = c := by simpa [heq] using hd
        exact List.all_eq_true.mp h d hc
      · rw [heq] at hd
        rcases List.mem_cons.mp hd with rfl | hd
        · rfl
        · exact List.all_eq_true.mp hes d hd
    rw [write, List.cons_append, List.all_cons, List.all_append, hbody]
    rfl
  | literal => exact absurd rfl hst

namespace Value

theorem noBreak_writeTag (t : String) : (writeTag t).all (!isBreak ·) = true := by
  obtain ⟨name, hname⟩ := Token.exists_markedTag t
  cases name with
  | nil =>
    rw [writeTag, hname]
    simp only [Token.writeTagName_mark]
    decide
  | cons c name =>
    rw [writeTag, hname]
    simp only [List.all_cons, Token.noBreak_writeTagName]
    rfl

theorem noBreak_leafText {n : Nat} {v : Value} (hv : v.isLeaf = true)
    (h : isSimpleKey n v = true) (indent : Nat) :
    (v.leafText indent).all (!isBreak ·) = true := by
  rcases isLeaf_cases hv with hv | ⟨b, e, t, u, hflow, -, htext⟩
  · obtain ⟨hbreak, -⟩ := isSimpleKey_scalar hv h
    rw [leafText_scalar hv]
    refine noBreak_write (style_ne_literal hbreak) ?_ indent
    rw [List.all_eq_true]
    intro c hc
    rw [noBreak_of_any hbreak c hc]
    rfl
  · rw [htext]
    cases hflow <;> rfl

/-- A key that is written before its colon stands on one line. -/
theorem noBreak_keyText (indent : Nat) {n : Nat} {k : Value} (h : isSimpleKey n k = true) :
    (k.keyText indent).all (!isBreak ·) = true := by
  induction n, k, h using simpleKey_induction with
  | tagged n t content h ih =>
    rw [keyText, List.all_append, List.all_cons, noBreak_writeTag, ih]
    rfl
  | leaf n v h hv =>
    rw [keyText_leaf hv]
    exact noBreak_leafText hv h indent

theorem fresh_keyText (indent : Nat) (tail : List Char) {n : Nat} {k : Value}
    (h : isSimpleKey n k = true) : Scan.Fresh (k.keyText indent ++ tail) := by
  induction n, k, h using simpleKey_induction with
  | tagged n t content h ih =>
    obtain ⟨cs, hcs⟩ := Scan.exists_writeTag t
    rw [keyText, hcs]
    exact Scan.fresh_cons.mpr (by decide)
  | leaf n v h hv =>
    rw [keyText_leaf hv]
    exact fresh_leafText hv indent tail

end Value

namespace Scan

/-- Whether the spot of a key is still remembered after some characters on its line. -/
def Reaches (cur : Cursor) (spot : KeySpot) (cs : List Char) : Prop :=
  spot.line = cur.line ∧ cur.index + byteCount cs ≤ spot.index + 1024

theorem Reaches.expire_eq {cur : Cursor} {spot : KeySpot} {cs ds : List Char}
    (h : Reaches cur spot (cs ++ ds)) (hcs : cs.all (!isBreak ·) = true) :
    expire (cur.pass cs) [some spot] = some [some spot] := by
  have hfits : fits (cur.pass cs) spot = true := by
    have hsize := h.2
    rw [byteCount_append] at hsize
    rw [fits, line_pass_of_noBreak hcs, index_pass, h.1]
    simp
    omega
  simp [expire, hfits]

/-- A leaf that may stand before a colon. -/
theorem leads_leafKey {s r : Scan} (hready : ready? s = some r)
    (hlength : r.cursor.rest.length ≤ s.cursor.rest.length) {n indent : Nat} (hindent : indent ≠ 0)
    (hcolumn : r.indent ≤ r.cursor.column) {k : Value} (hleaf : k.isLeaf = true)
    (hkey : isSimpleKey n k = true) {tail : List Char} (htail : BeginsGap tail)
    (hrest : r.cursor.rest = k.leafText indent ++ ':' :: tail) {o : Option KeySpot}
    (ho : r.spots = [o]) (hsave : CanSave r o) {spot : KeySpot}
    (hspot : r.withSpot.spots = [some spot]) (hreach : Reaches r.cursor spot (k.leafText indent)) :
    Leads s { r with
      cursor := r.cursor.pass (k.leafText indent)
      tokens := r.tokens ++ k.leafTokens.toArray
      spots := [some spot]
      keyAllowed := false } := by
  rcases isLeaf_cases hleaf with hv | ⟨b, e, t, u, hflow, htokens, htext⟩
  · obtain ⟨hbreak, -⟩ := isSimpleKey_scalar hv hkey
    rw [leafText_scalar hv] at hrest hreach ⊢
    have hsuits := suits_style hv
    obtain ⟨c, cs, hc, hnext⟩ := next_write hindent hsuits (style_ne_literal hbreak)
      (.colon htail) hrest hcolumn ho hsave
    have hpass : Style.write indent k.scalarText k.style ++
        (if k.style = .plain then [] else []) = Style.write indent k.scalarText k.style := by
      rw [ite_self, List.append_nil]
    rw [hpass, Bool.and_false] at hnext
    have hafter := Cursor.rest_pass_of_eq hrest
    have hpos := length_write_pos hsuits indent
    refine Leads.of_next hready hc (hnext.trans (congrArg some ?_)) ?_
    · rw [leafTokens_scalar hv, withSpot_eq hspot]
      rfl
    · refine Nat.lt_of_lt_of_le ?_ hlength
      rw [hafter, hrest, List.length_append]
      omega
  · rw [htext] at hrest hreach ⊢
    have hexpire : expire (r.cursor.pass [b]) r.withSpot.spots = some [some spot] := by
      rw [hspot]
      exact @Reaches.expire_eq _ _ [b] [e] hreach (by cases hflow <;> rfl)
    have hleads := leads_emptyFlow hready hlength hflow hrest ho hsave hexpire
    have htwo : r.tokens ++ [t, u].toArray = (r.tokens.push t).push u := Array.ext' (by simp)
    rw [htokens, htwo]
    exact hleads

theorem Reaches.pass {cur : Cursor} {spot : KeySpot} {cs ds : List Char}
    (h : Reaches cur spot (cs ++ ds)) (hcs : cs.all (!isBreak ·) = true) :
    Reaches (cur.pass cs) spot ds := by
  refine ⟨h.1.trans (line_pass_of_noBreak hcs cur).symm, ?_⟩
  have hsize := h.2
  rw [byteCount_append] at hsize
  rw [index_pass]
  omega

/-- A blank on the line of a key. -/
theorem ready?_blank {s : Scan} {spot : KeySpot} {cs tail : List Char} (htail : Fresh tail)
    (hrest : s.cursor.rest = ' ' :: tail) (hcolumn : s.indent ≤ s.cursor.column)
    (hspot : s.spots = [some spot]) (hreach : Reaches s.cursor spot (' ' :: cs)) :
    ready? s = some { s with cursor := s.cursor.pass [' '] } := by
  have hexpire := @Reaches.expire_eq _ _ [' '] cs hreach rfl
  rw [@ready?_spaces 1 tail htail s hrest _ (hspot ▸ hexpire), unroll_of_le]
  · rfl
  · rw [column_pass_of_noBreak (noBreak_spaces 1)]
    exact Int.le_trans hcolumn (Int.ofNat_le.mpr (Nat.le_add_right _ _))

/-- A tag is taken if all of it can be scanned. -/
theorem outcome_tag {s r : Scan} (hready : ready? s = some r)
    (hlength : r.cursor.rest.length ≤ s.cursor.rest.length) {t : String} {tail : List Char}
    (htail : BeginsGap tail) (hrest : r.cursor.rest = writeTag t ++ tail) {o : Option KeySpot}
    (ho : r.spots = [o]) (hsave : CanSave r o) : Outcome (isScannable t = true) s { r.withSpot with
      cursor := r.cursor.pass (writeTag t)
      tokens := r.tokens.push (Token.ofTag t)
      keyAllowed := false } := by
  obtain ⟨cs, hcs⟩ := exists_writeTag t
  have hhead : r.cursor.rest = '!' :: (cs ++ tail) := by
    rw [hrest, hcs]
    rfl
  constructor
  · intro ht
    have hnext := next_tag hrest htail ho hsave (isScannable_iff.mp ht)
    exact Leads.of_next hready hhead hnext (Nat.lt_of_lt_of_le
      (length_rest_pass_lt hrest (by rw [hcs]; exact List.cons_ne_nil _ _)) hlength)
  · intro ht
    exact Fails.of_next hready hhead
      (next_tag_eq_none hrest ho hsave (not_isScannable_iff.mp ht))

/-- A key before its colon, with its tags. Its place is still remembered after it. -/
theorem outcome_keyText {indent : Nat} (hindent : indent ≠ 0) {tail : List Char}
    (htail : BeginsGap tail) {n : Nat} {k : Value} (hkey : isSimpleKey n k = true) {s r : Scan}
    (hready : ready? s = some r) (hlength : r.cursor.rest.length ≤ s.cursor.rest.length)
    (hcolumn : r.indent ≤ r.cursor.column) (hrest : r.cursor.rest = k.keyText indent ++ ':' :: tail)
    {o : Option KeySpot} (ho : r.spots = [o]) (hsave : CanSave r o) {spot : KeySpot}
    (hspot : r.withSpot.spots = [some spot]) (hreach : Reaches r.cursor spot (k.keyText indent)) :
    Outcome (k.allTags isScannable = true) s { r with
      cursor := r.cursor.pass (k.keyText indent)
      tokens := r.tokens ++ (k.tokens .afterKey true).toArray
      spots := [some spot]
      keyAllowed := false } := by
  induction n, k, hkey using simpleKey_induction generalizing s r o with
  | tagged n t content hkey ih =>
    rw [keyText] at hreach
    rw [keyText, List.append_assoc, List.cons_append] at hrest
    have htag := outcome_tag hready hlength (beginsGap_cons.mpr (.inl rfl)) hrest ho hsave
    rw [withSpot_eq hspot] at htag
    have hline := noBreak_writeTag t
    have hafter := rest_pass_of_eq hrest
    have hreach' := hreach.pass hline
    have hcolumn' : r.indent ≤ (r.cursor.pass (writeTag t)).column := by
      rw [column_pass_of_noBreak hline]
      omega
    have hready' := @ready?_blank { r with
      cursor := r.cursor.pass (writeTag t)
      tokens := r.tokens.push (Token.ofTag t)
      spots := [some spot]
      keyAllowed := false } spot _ _ (fresh_keyText _ _ (isSimpleKey_tagged hkey)) hafter hcolumn'
      rfl hreach'
    have hafter' := @rest_pass_of_eq [' '] _ _ hafter
    have hcontent := ih hready' (length_rest_pass_le _ _)
      (Int.le_trans hcolumn' (Int.ofNat_le.mpr (column_le_pass_of_noBreak rfl _))) hafter' rfl
      (fun h => absurd h Bool.false_ne_true) rfl (@Reaches.pass _ _ [' '] _ hreach' rfl)
    have hboth := htag.trans hcontent
    simp only [← pass_append] at hboth
    rw [allTags, Bool.and_eq_true, keyText, Value.tokens]
    simpa using hboth
  | leaf n v hkey hv =>
    rw [keyText_leaf hv] at hrest hreach ⊢
    rw [tokens_leaf hv]
    have hok : v.allTags isScannable = true := allTags_leaf hv _
    exact .of_leads hok (leads_leafKey hready hlength hindent hcolumn hv hkey htail hrest ho hsave
      hspot hreach)

/-! ## At the colon -/

theorem insertIdxIfInBounds_append (ts : Array Token) (us : List Token) (t : Token) :
    (ts ++ us.toArray).insertIdxIfInBounds ts.size t = ts ++ (t :: us).toArray := by
  have hlist : ∀ pre post : List Token, (pre ++ post).insertIdx pre.length t = pre ++ t :: post := by
    intro pre post
    induction pre with
    | nil => rfl
    | cons a pre ih => exact congrArg (a :: ·) ih
  obtain ⟨ts⟩ := ts
  simp [hlist]

/-- The mark of a key and the beginning of a block show only at the colon, and are put before the
key. -/
theorem valueMark_eq {s r : Scan} {us : List Token} (htokens : r.tokens = s.tokens ++ us.toArray)
    (hindent : r.indent = s.indent) (houter : r.outer = s.outer) {o : Option KeySpot}
    (ho : s.spots = [o]) {spot : KeySpot} (hspots : r.spots = [some spot])
    (htoken : spot.token = s.tokens.size) {tail : List Char} (hrest : r.cursor.rest = ':' :: tail) :
    r.valueMark = some { s.roll spot.column none .blockMappingStart with
      cursor := r.cursor.pass [':']
      tokens := (s.roll spot.column none .blockMappingStart).tokens ++
        (Token.key :: us ++ [Token.value]).toArray
      spots := [none]
      keyAllowed := false } := by
  have hskip := Cursor.skip_one_eq_pass hrest rfl
  rw [valueMark, hspots]
  simp only [htokens, htoken, insertIdxIfInBounds_append, roll, inFlow, hindent, houter, ho]
  by_cases hlt : s.indent < spot.column
  · simp [hlt, allowKey, emitMark, hskip]
  · simp [hlt, allowKey, emitMark, hskip]

/-- A key that stands where the block does, or begins one, with its colon. -/
theorem outcome_key {s : Scan} {indent : Nat} (hindent : indent ≠ 0)
    (hcolumn : s.indent ≤ s.cursor.column) {k : Value} (hkey : isSimpleKey 0 k = true)
    {tail : List Char} (htail : BeginsGap tail)
    (hrest : s.cursor.rest = k.keyText indent ++ ':' :: tail) (hspots : s.spots = [none])
    (hallowed : s.keyAllowed = true) : Outcome (k.allTags isScannable = true) s
      { s.roll s.cursor.column none .blockMappingStart with
        cursor := s.cursor.pass (k.keyText indent ++ [':'])
        tokens := (s.roll s.cursor.column none .blockMappingStart).tokens ++
          (Token.key :: k.tokens .afterKey true ++ [Token.value]).toArray
        spots := [none]
        keyAllowed := false } := by
  have hready : ready? s = some s :=
    ready?_self (hrest ▸ fresh_keyText indent _ hkey) hcolumn (by rw [hspots]; rfl)
  obtain ⟨spot, hspot, htoken, hspotColumn, hreach⟩ : ∃ spot, s.withSpot.spots = [some spot] ∧
      spot.token = s.tokens.size ∧ spot.column = s.cursor.column ∧
      Reaches s.cursor spot (k.keyText indent) := by
    refine ⟨_, by rw [withSpot, if_pos hallowed], rfl, rfl, rfl, ?_⟩
    have hle := (byteCount_keyText_le indent hkey).1
    show s.cursor.index + _ ≤ s.cursor.index + 1024
    omega
  have hline := noBreak_keyText indent hkey
  have hafter := rest_pass_of_eq hrest
  have houtcome := outcome_keyText hindent htail hkey hready (Nat.le_refl _) hcolumn hrest hspots
    (fun _ => pending_none _) hspot hreach
  generalize hr : ({ s with cursor := _, tokens := _, spots := _, keyAllowed := _ } : Scan) = r
    at houtcome
  have hready' : ready? r = some r := by
    rw [← List.append_nil (k.keyText indent)] at hreach
    have hexpire := hreach.expire_eq hline
    rw [← hr]
    exact ready?_self (hafter ▸ fresh_cons.mpr (by decide)) (Int.le_trans hcolumn
      (Int.ofNat_le.mpr (column_le_pass_of_noBreak hline _))) hexpire
  have hnext : r.next ':' = r.valueMark := by
    have hmark : r.cursor.atDocumentMark = false :=
      Cursor.atDocumentMark_of_head (by rw [← hr]; exact hafter) (by decide) (by decide)
    have hgap : r.cursor.gapAt 1 = true :=
      @gapAt_eq_true [':'] _ htail _ (by rw [← hr]; exact hafter)
    simp [next, hmark, hgap]
  have hvalue := @valueMark_eq s r (k.tokens .afterKey true) (by rw [← hr]) (by rw [← hr])
    (by rw [← hr]) none hspots spot (by rw [← hr]) htoken tail (by rw [← hr]; exact hafter)
  have hleads := Leads.of_next hready' (by rw [← hr]; exact hafter) (hnext.trans hvalue)
    (@length_rest_pass_lt [':'] _ _ (by rw [← hr]; exact hafter) (List.cons_ne_nil _ _))
  have hboth := houtcome.leads hleads
  rw [hspotColumn] at hboth
  rw [pass_append]
  rw [← hr] at hboth
  exact hboth

end Scan

end RouteFleet.Yaml
