import RouteFleet.Proofs.Hcl.Quoted

/-! # Reading line by line

A value that a line ends after is read as what it is alone (`takes_expression`). So a body is read line by
line: an attribute, or a block with its own lines, is the first part of what is read, and the other lines
give the others (`takes_attribute`, `takes_block`).
-/

namespace RouteFleet.Hcl

open Text ReadM

/-! ## Blanks and names -/

/-- Whether there is nothing but blanks in a text. -/
def isBlank (lines : Bool) (cs : List Char) : Bool := cs.all (isGap lines)

/-- Whether a text does not begin with a blank or a comment. -/
def BeginsWord (lines : Bool) (cs : List Char) : Prop :=
  ∀ c ∈ cs.head?, isGap lines c = false ∧ c ≠ '/' ∧ c ≠ '#'

theorem gapLength_eq {lines : Bool} {blanks cs : List Char} {fuel : Nat}
    (hblanks : isBlank lines blanks = true) (hcs : BeginsWord lines cs)
    (hfuel : blanks.length ≤ fuel) : gapLength lines fuel (blanks ++ cs) = blanks.length := by
  induction blanks generalizing fuel with
  | nil =>
    cases fuel with
    | zero => rfl
    | succ fuel =>
      cases cs with
      | nil => rfl
      | cons c cs =>
        obtain ⟨hgap, hslash, hhash⟩ := hcs c rfl
        have hcomment : commentLength? lines (c :: cs) = none := by
          unfold commentLength?
          split <;> simp_all
        rw [List.nil_append, gapLength, if_neg (by simp [hgap]), hcomment]
        rfl
  | cons b blanks ih =>
    obtain ⟨hb, hblanks⟩ := Bool.and_eq_true_iff.mp hblanks
    cases fuel with
    | zero => exact absurd hfuel (Nat.not_succ_le_zero _)
    | succ fuel =>
      rw [List.cons_append, gapLength, if_pos hb, ih hblanks (Nat.le_of_succ_le_succ hfuel)]
      rfl

theorem takes_blanks {lines : Bool} {blanks cs : List Char} (hblanks : isBlank lines blanks = true)
    (hcs : BeginsWord lines cs) : Takes (gap lines) (blanks ++ cs) () cs := by
  have hlength : gapLength lines (blanks ++ cs).length (blanks ++ cs) = blanks.length :=
    gapLength_eq hblanks hcs (by simp)
  have h := takes_gap hlength
  rwa [List.drop_left] at h

theorem takes_noBlanks {lines : Bool} {cs : List Char} (hcs : BeginsWord lines cs) :
    Takes (gap lines) cs () cs :=
  @takes_blanks lines [] cs rfl hcs

/-- Whether a text is a name. -/
def isWord : List Char → Bool
  | [] => false
  | first :: more => beginsName first && more.all isNameChar

theorem takes_name {word cs : List Char} (hword : isWord word = true)
    (hcs : ∀ c ∈ cs.head?, isNameChar c = false) : Takes name (word ++ cs) (String.ofList word) cs := by
  cases word with
  | nil => cases hword
  | cons first more =>
    obtain ⟨hfirst, hmore⟩ := (Bool.and_eq_true_iff).mp hword
    have hnone : cs.takeWhile isNameChar = [] := by
      cases cs with
      | nil => rfl
      | cons c cs => rw [List.takeWhile_cons_of_neg (by simp [hcs c rfl])]
    have hlength : nameLength (first :: more ++ cs) = more.length + 1 := by
      rw [List.cons_append, nameLength, if_pos hfirst,
        List.takeWhile_append_of_pos (List.all_eq_true.mp hmore), hnone, List.append_nil]
    have htake : (first :: more ++ cs).take (more.length + 1) = first :: more := List.take_left' rfl
    refine (takes_rest _).bind ?_
    rw [hlength]
    change Takes (do
      advance (more.length + 1)
      return String.ofList ((first :: more ++ cs).take (more.length + 1))) _ _ _
    rw [htake]
    exact (takes_advance_append (first :: more) cs).bind (takes_pure _ _)

theorem ne_of_beginsName {c d : Char} (hc : beginsName c = true) (hd : beginsName d = false) : c ≠ d := by
  rintro rfl
  rw [hc] at hd
  cases hd

/-- A name does not begin like a blank, a comment or the end of a block. -/
theorem beginsWord_of_isWord {lines : Bool} {word : List Char} (h : isWord word = true) (cs : List Char) :
    BeginsWord lines (word ++ cs) ∧ ∃ c more, word ++ cs = c :: more ∧ c ≠ '\x7d' := by
  cases word with
  | nil => cases h
  | cons first more =>
    have hfirst : beginsName first = true := (Bool.and_eq_true_iff.mp h).1
    refine ⟨fun c hc => ?_, first, more ++ cs, rfl, ne_of_beginsName hfirst (by decide)⟩
    obtain rfl := Option.some.inj hc
    have hblank : first ≠ ' ' ∧ first ≠ '\t' :=
      ⟨ne_of_beginsName hfirst (by decide), ne_of_beginsName hfirst (by decide)⟩
    have hbreak : first ≠ '\n' ∧ first ≠ '\r' :=
      ⟨ne_of_beginsName hfirst (by decide), ne_of_beginsName hfirst (by decide)⟩
    refine ⟨?_, ne_of_beginsName hfirst (by decide), ne_of_beginsName hfirst (by decide)⟩
    simp [isGap, hblank, hbreak]

theorem isNameChar_of_isGap {c : Char} (h : isGap false c = true) : isNameChar c = false := by
  have hc : c = ' ' ∨ c = '\t' := by simpa [isGap] using h
  rcases hc with rfl | rfl <;> decide

/-- No name goes on where blanks and a mark come next. -/
theorem isNameChar_head? {blanks cs : List Char} {mark : Char}
    (hblanks : isBlank false blanks = true) (hmark : isNameChar mark = false) :
    ∀ c ∈ (blanks ++ mark :: cs).head?, isNameChar c = false := by
  intro c hc
  cases blanks with
  | nil => exact Option.some.inj hc ▸ hmark
  | cons b blanks => exact Option.some.inj hc ▸ isNameChar_of_isGap (Bool.and_eq_true_iff.mp hblanks).1

/-! ## Values -/

section Values

variable {p : Place} {fuel : Nat} {cs rest : List Char} {e : Expression}

theorem refuses_access : Refuses (access p fuel) ('\n' :: rest) := by
  cases fuel with
  | zero => exact refuses_failure _
  | succ fuel =>
    rw [access]
    exact (takes_takeIf_false (by simp)).bind_refuses (refuses_expect (by simp)).bind

/-- Before the end of a line, an expression is what it begins with. -/
theorem takes_expression (hp : p.lines = false) (hminus : cs.head? ≠ some '-') (hnot : cs.head? ≠ some '!')
    (h : Takes (primary p (fuel + 1)) cs e ('\n' :: rest)) :
    Takes (expression p (fuel + 4)) cs e ('\n' :: rest) := by
  have hgap : Takes (gap p.lines) ('\n' :: rest) () ('\n' :: rest) := by
    rw [hp]
    exact takes_noBlanks (by simp [BeginsWord, isGap])
  have haccesses : Takes (accesses p (fuel + 1) e) ('\n' :: rest) e ('\n' :: rest) := by
    rw [accesses]
    exact (hgap.bind_refuses refuses_access).attempt.bind (takes_pure _ _)
  have hoperand : Takes (operand p (fuel + 2)) cs e ('\n' :: rest) := by
    rw [operand]
    refine (takes_rest cs).bind ?_
    split
    · exact absurd rfl hminus
    · exact absurd rfl hnot
    · exact h.bind haccesses
  have hoperation : Takes (operation p (fuel + 3)) cs e ('\n' :: rest) := by
    rw [operation]
    refine hoperand.bind ((Refuses.attempt ?_).bind (takes_pure _ _))
    exact hgap.bind_refuses ((takes_rest _).bind_refuses (refuses_lift rfl _).bind)
  rw [expression]
  refine hoperation.bind ((Refuses.attempt ?_).bind (takes_pure _ _))
  exact hgap.bind_refuses (refuses_expect (by simp))

theorem takes_value {blanks : List Char} (hblanks : isBlank false blanks = true)
    (hcs : BeginsWord false cs) (hminus : cs.head? ≠ some '-') (hnot : cs.head? ≠ some '!')
    (h : ∀ fuel, cs.length < fuel → Takes (primary .outermost fuel) cs e ('\n' :: rest)) :
    Takes value (blanks ++ cs) e ('\n' :: rest) := by
  refine (takes_blanks hblanks hcs).bind ((takes_rest cs).bind ?_)
  have hfuel : fuelFor cs = 16 * cs.length + 60 + 4 := rfl
  rw [hfuel]
  have hgap : Takes (gap false) ('\n' :: rest) () ('\n' :: rest) :=
    takes_noBlanks (by simp [BeginsWord, isGap])
  exact (takes_expression rfl hminus hnot (h _ (by omega))).bind (hgap.bind (takes_pure _ _))

theorem takes_primary_quoted {written said : List Char} (h : Spells written said)
    (hunmarked : IsUnmarked (written ++ '"' :: rest)) (hfuel : written.length + 2 < fuel) :
    Takes (primary p fuel) ('"' :: written ++ '"' :: rest) (.string (String.ofList said)) rest := by
  cases fuel with
  | zero => exact absurd hfuel (Nat.not_lt_zero _)
  | succ fuel =>
    rw [primary]
    exact (takes_rest _).bind (takes_quoted h hunmarked (by omega))

end Values

/-! ## Lines -/

theorem takes_lineEnd (rest : List Char) : Takes lineEnd ('\n' :: rest) () rest := by
  refine (takes_noBlanks (by simp [BeginsWord, isGap])).bind ?_
  exact (takes_rest _).bind ((takes_rest _).bind (takes_advance 1 _))

section Lines

variable {inBlock : Bool} {fuel : Nat} {indent word blanks cs rest left : List Char} {e : Expression}
  {items body' : Body} (hindent : isBlank true indent = true) (hword : isWord word = true)
  (hblanks : isBlank false blanks = true)

include hindent hword hblanks

/-- A line with an attribute. -/
theorem takes_attribute (hvalue : Takes value cs e ('\n' :: rest))
    (hrest : Takes (body inBlock fuel) rest items left)
    (hnew : items.any (·.sets (String.ofList word)) = false) :
    Takes (body inBlock (fuel + 1)) (indent ++ (word ++ (blanks ++ '=' :: cs)))
      (.attribute (String.ofList word) e :: items) left := by
  obtain ⟨hbegins, c, more, hcons, hclose⟩ := @beginsWord_of_isWord true word hword (blanks ++ '=' :: cs)
  have hset : Takes setMark (blanks ++ '=' :: cs) true cs :=
    (takes_blanks hblanks (by simp [BeginsWord, isGap])).bind (takes_takeIf ['='] cs)
  rw [body]
  refine (takes_blanks hindent hbegins).bind ((takes_rest _).bind ?_)
  split
  case h_1 heq => cases hcons.symm.trans heq
  case h_2 heq => exact absurd (List.cons.inj (hcons.symm.trans heq)).1 hclose
  case h_3 =>
    refine (takes_name hword (isNameChar_head? hblanks (by decide))).bind (hset.bind ?_)
    rw [if_pos rfl]
    refine hvalue.bind ((takes_pure _ _).bind ((takes_lineEnd rest).bind (hrest.bind ?_)))
    dsimp only
    rw [if_neg (Bool.not_eq_true _ ▸ hnew)]
    exact takes_pure _ _

/-- A line with an attribute that is set to a text. -/
theorem takes_textAttribute {written said : List Char} (h : Spells written said)
    (hunmarked : IsUnmarked (written ++ '"' :: '\n' :: rest))
    (hrest : Takes (body inBlock fuel) rest items left)
    (hnew : items.any (·.sets (String.ofList word)) = false) :
    Takes (body inBlock (fuel + 1))
      (indent ++ (word ++ (blanks ++ '=' :: ' ' :: '"' :: (written ++ '"' :: '\n' :: rest))))
      (.attribute (String.ofList word) (.string (String.ofList said)) :: items) left := by
  have hvalue : Takes value (' ' :: '"' :: (written ++ '"' :: '\n' :: rest))
      (.string (String.ofList said)) ('\n' :: rest) :=
    @takes_value _ _ _ [' '] (by decide) (by simp [BeginsWord, isGap]) (by simp) (by simp)
      fun fuel hfuel => takes_primary_quoted h hunmarked (by simp at hfuel; omega)
  exact takes_attribute hindent hword hblanks hvalue hrest hnew

/-- A block without labels, with its body on lines of its own. -/
theorem takes_block (hbody : Takes (body true fuel) cs body' ('\n' :: rest))
    (hrest : Takes (body inBlock (fuel + 1)) rest items left) :
    Takes (body inBlock (fuel + 2)) (indent ++ (word ++ (blanks ++ '\x7b' :: '\n' :: cs)))
      (.block (String.ofList word) [] body' :: items) left := by
  obtain ⟨hbegins, c, more, hcons, hclose⟩ :=
    @beginsWord_of_isWord true word hword (blanks ++ '\x7b' :: '\n' :: cs)
  have hset : Takes setMark (blanks ++ '\x7b' :: '\n' :: cs) false ('\x7b' :: '\n' :: cs) :=
    (takes_blanks hblanks (by simp [BeginsWord, isGap])).bind (takes_takeIf_false (by simp))
  have hlabels : Takes (labels (fuel + 2)) ('\x7b' :: '\n' :: cs) [] ('\n' :: cs) := by
    have hgap : Takes (gap false) ('\x7b' :: '\n' :: cs) () ('\x7b' :: '\n' :: cs) :=
      takes_noBlanks (by simp [BeginsWord, isGap])
    rw [labels]
    exact hgap.bind ((takes_rest _).bind ((takes_advance 1 _).bind (takes_pure _ _)))
  have hblock : Takes (blockBody (fuel + 1)) ('\n' :: cs) body' ('\n' :: rest) := by
    rw [blockBody]
    exact (takes_lineEnd cs).attempt.bind hbody
  rw [body]
  refine (takes_blanks hindent hbegins).bind ((takes_rest _).bind ?_)
  split
  case h_1 heq => cases hcons.symm.trans heq
  case h_2 heq => exact absurd (List.cons.inj (hcons.symm.trans heq)).1 hclose
  case h_3 =>
    refine (takes_name hword (isNameChar_head? hblanks (by decide))).bind (hset.bind ?_)
    rw [if_neg Bool.false_ne_true]
    exact hlabels.bind (hblock.bind ((takes_pure _ _).bind ((takes_lineEnd rest).bind
      (hrest.bind (takes_pure _ _)))))

end Lines

section Ends

variable {fuel : Nat} {cs rest : List Char}

/-- The end of a block. -/
theorem takes_body_close (h : Takes (gap true) cs () ('\x7d' :: rest)) :
    Takes (body true (fuel + 1)) cs [] rest := by
  rw [body]
  exact h.bind ((takes_rest _).bind ((takes_advance 1 _).bind (takes_pure _ _)))

/-- The end of a text. -/
theorem takes_body_nil : Takes (body false (fuel + 1)) [] [] [] := by
  have hgap : Takes (gap true) [] () [] := takes_gap rfl
  rw [body]
  exact hgap.bind ((takes_rest _).bind (takes_pure _ _))

end Ends

/-- What all of a text is read as. -/
theorem read?_of_takes {text : String} {items : Body}
    (h : Takes (body false (text.length + 2)) text.toList items []) : read? text = some items := by
  obtain ⟨kept, h⟩ := h []
  change (body false (text.length + 2) ⟨text.toList, []⟩).map (·.1) = _
  rw [h]
  rfl

end RouteFleet.Hcl
