import RouteFleet.Json.Printer
import RouteFleet.Json.Reader
import RouteFleet.Proofs.Json.Literal

/-! # Reading what is written

A document that is built from texts, integers and truth values (`Json.Built`) is written over several lines
as a row of tokens (`Json.tokens`) with blanks between them: cut into tokens, what is written is that row
(`Json.Built.scans`), and the row is put together to the document (`Json.parses`). So what is written for
it, and blanks behind, is read as the document (`Json.Built.read?_pretty`).
-/

namespace RouteFleet.Json

open Text

/-! ## Documents and their tokens -/

/-- Whether a document is built from texts, integers, truth values and nothing. -/
inductive Built : Json → Prop where
  | null : Built .null
  | bool (b : Bool) : Built (.bool b)
  | text (s : String) : Built (ofText s)
  | int (n : Int) : Built (ofInt n)
  | array {items : List Json} : (∀ item ∈ items, Built item) → Built (.array items)
  | fields {fields : List (String × Json)} : (∀ f ∈ fields, Built f.2) → Built (ofFields fields)

mutual

/-- The tokens that a document is written with. -/
def tokens : Json → List Token
  | .null => [.null]
  | .bool b => [.bool b]
  | .number literal => [.number literal]
  | .string literal => [.string literal]
  | .array [] => [.openBracket, .closeBracket]
  | .array (item :: items) =>
    .openBracket :: (tokens item ++ (itemTokens items ++ [.closeBracket]))
  | .object [] => [.openBrace, .closeBrace]
  | .object ((key, value) :: fields) =>
    .openBrace :: .string key :: .colon :: (tokens value ++ (fieldTokens fields ++ [.closeBrace]))

/-- The tokens of the items after the first. -/
def itemTokens : List Json → List Token
  | [] => []
  | item :: items => .comma :: (tokens item ++ itemTokens items)

/-- The tokens of the fields after the first. -/
def fieldTokens : List (String × Json) → List Token
  | [] => []
  | (key, value) :: fields =>
    .comma :: .string key :: .colon :: (tokens value ++ fieldTokens fields)

end

/-! ## Cutting into tokens -/

/-- Whether a text is cut into tokens. -/
def Scans (cs : List Char) (ts : List Token) : Prop :=
  ∀ fuel, cs.length ≤ fuel → Token.scanFrom fuel cs = some ts

namespace Scans

variable {rest tail : List Char} {ts : List Token}

theorem nil : Scans [] [] := fun fuel _ => by cases fuel <;> rfl

/-- The first character takes one round, and the rest the others. -/
theorem cons {c : Char} (h : ∀ fuel, tail.length ≤ fuel →
    Token.scanFrom (fuel + 1) (c :: tail) = some ts) : Scans (c :: tail) ts := by
  intro fuel hfuel
  cases fuel with
  | zero => exact absurd hfuel (Nat.not_succ_le_zero _)
  | succ fuel => exact h fuel (Nat.le_of_succ_le_succ hfuel)

/-- Blanks are passed over. -/
theorem blanks {cs : List Char} (hcs : ∀ c ∈ cs, Token.isSpace c = true) (h : Scans rest ts) :
    Scans (cs ++ rest) ts := by
  induction cs with
  | nil => exact h
  | cons c cs ih =>
    rw [List.forall_mem_cons] at hcs
    refine cons fun fuel hfuel => ?_
    rw [Token.scanFrom, if_pos hcs.1]
    exact ih hcs.2 fuel hfuel

/-- A token is cut off. -/
theorem token {c : Char} {t : Token} (hc : Token.isSpace c = false)
    (hone : Token.scanOne c tail = some (t, rest)) (hshort : rest.length ≤ tail.length)
    (h : Scans rest ts) : Scans (c :: tail) (t :: ts) := by
  refine cons fun fuel hfuel => ?_
  rw [Token.scanFrom, hc, if_neg Bool.false_ne_true, hone, Option.bind_some]
  exact congrArg (Option.map (t :: ·)) (h fuel (Nat.le_trans hshort hfuel))

/-- A mark is a token. -/
theorem mark {c : Char} {t : Token} (hc : Token.isSpace c = false)
    (hone : ∀ rest, Token.scanOne c rest = some (t, rest)) (h : Scans rest ts) :
    Scans (c :: rest) (t :: ts) :=
  h.token hc (hone rest) (Nat.le_refl _)

/-- What is written for a text is a token. -/
theorem text (s : String) (h : Scans rest ts) :
    Scans ('"' :: ((escape s).toList ++ '"' :: rest)) (.string (escape s) :: ts) := by
  refine h.token (by decide) ?_ ?_
  · rw [Token.scanOne, escape, String.toList_ofList, Token.scanString_escape]
    rfl
  · rw [List.length_append, List.length_cons]
    omega

/-- What is written for an integer is a token. -/
theorem int (n : Int) (hrest : Token.EndsNumber rest) (h : Scans rest ts) :
    Scans ((toString n).toList ++ rest) (.number (toString n) :: ts) := by
  have hscan := Token.scanNumber_ofInt hrest n
  have hfirst : ∃ c more, (toString n).toList = c :: more ∧ (c = '-' ∨ isDigit c = true) := by
    rcases toList_toString_int n with ⟨-, hwritten⟩ | ⟨-, hwritten⟩
    · obtain ⟨d, ds, hdigits, hdigit⟩ := exists_toDigits_cons n.toNat
      exact ⟨d, ds, hwritten.trans hdigits, .inr hdigit⟩
    · exact ⟨'-', _, hwritten, .inl rfl⟩
  obtain ⟨c, more, hwritten, hc⟩ := hfirst
  have hne : ∀ d, d ≠ '-' → isDigit d = false → c ≠ d := by
    rintro d hdash hdigit rfl
    rcases hc with hc | hc
    · exact hdash hc
    · exact nomatch hc.symm.trans hdigit
  rw [hwritten, List.cons_append] at hscan ⊢
  refine h.token ?_ ?_ (by rw [List.length_append]; exact Nat.le_add_left _ _)
  · simp [Token.isSpace, hne ' ' (by decide) (by decide), hne '\t' (by decide) (by decide),
      hne '\n' (by decide) (by decide), hne '\r' (by decide) (by decide)]
  · have hnumber : Token.scanOne c (more ++ rest) = (Token.scanNumber (c :: (more ++ rest))).map
        fun p => (.number (String.ofList p.1), p.2) := by
      rw [Token.scanOne] <;> exact hne _ (by decide) (by decide)
    rw [hnumber, hscan, Option.map_some, ← hwritten, String.ofList_toList]

end Scans

/-! ## What is written -/

/-- Whether what is written for a document is cut into its tokens, wherever it stands. -/
def Written (j : Json) : Prop := ∀ level rest ts, Token.EndsNumber rest → Scans rest ts →
  Scans ((prettyAt level j).toList ++ rest) (j.tokens ++ ts)

theorem isSpace_of_mem_indentation {level : Nat} {c : Char} (h : c ∈ (indentation level).toList) :
    Token.isSpace c = true := by
  rw [indentation, String.toList_ofList] at h
  rw [List.eq_of_mem_replicate h]
  decide

/-- A line is broken before a token. -/
theorem Scans.line (level : Nat) {rest : List Char} {ts : List Token} (h : Scans rest ts) :
    Scans ('\n' :: ((indentation level).toList ++ rest)) ts := by
  rw [← List.cons_append]
  refine h.blanks ?_
  rw [List.forall_mem_cons]
  exact ⟨by decide, fun c hc => isSpace_of_mem_indentation hc⟩

section Rows

variable (level : Nat) {rest : List Char} {ts : List Token}

/-- What is written after a value does not go on with its number. -/
theorem endsNumber_cons {c : Char} (h : isDigit c = false ∧ c ≠ '.' ∧ c ≠ 'e' ∧ c ≠ 'E')
    (rest : List Char) : Token.EndsNumber (c :: rest) := by
  rintro d ⟨⟩
  exact h

theorem endsNumber_items (items : List Json) (h : Token.EndsNumber rest) :
    Token.EndsNumber ((prettyItems level items).toList ++ rest) := by
  cases items with
  | nil => exact h
  | cons item items =>
    simp only [prettyItems, String.toList_append, List.append_assoc]
    exact endsNumber_cons (c := ',') (by decide) _

theorem scans_items {items : List Json} (hitems : ∀ item ∈ items, Written item)
    (hrest : Token.EndsNumber rest) (h : Scans rest ts) :
    Scans ((prettyItems level items).toList ++ rest) (itemTokens items ++ ts) := by
  induction items with
  | nil => exact h
  | cons item items ih =>
    rw [List.forall_mem_cons] at hitems
    have hmore := hitems.1 level _ _ (endsNumber_items level items hrest) (ih hitems.2)
    simp only [prettyItems, String.toList_append, List.append_assoc, itemTokens, List.cons_append]
    exact (hmore.line level).mark (c := ',') (by decide) (fun _ => rfl)

theorem endsNumber_fields (fields : List (String × Json)) (h : Token.EndsNumber rest) :
    Token.EndsNumber ((prettyFields level fields).toList ++ rest) := by
  cases fields with
  | nil => exact h
  | cons field fields =>
    simp only [prettyFields, String.toList_append, List.append_assoc]
    exact endsNumber_cons (c := ',') (by decide) _

/-- A field is written as its key, a colon, and its value. -/
theorem scans_field (key : String) {value : Json} (hvalue : Written value)
    (hrest : Token.EndsNumber rest) (h : Scans rest ts) :
    Scans ('"' :: ((escape key).toList ++ '"' :: ':' :: ' ' :: ((prettyAt level value).toList ++ rest)))
      (.string (escape key) :: .colon :: (value.tokens ++ ts)) := by
  have hspace : Scans (' ' :: ((prettyAt level value).toList ++ rest)) (value.tokens ++ ts) :=
    (hvalue level rest ts hrest h).blanks (List.forall_mem_singleton.mpr rfl)
  exact (hspace.mark (by decide) (fun _ => rfl)).text key

theorem scans_fields {fields : List (String × Json)} (hfields : ∀ f ∈ fields, Written f.2)
    (hrest : Token.EndsNumber rest) (h : Scans rest ts) :
    Scans ((prettyFields level (fields.map fun f => (escape f.1, f.2))).toList ++ rest)
      (fieldTokens (fields.map fun f => (escape f.1, f.2)) ++ ts) := by
  induction fields with
  | nil => exact h
  | cons field fields ih =>
    rw [List.forall_mem_cons] at hfields
    have hmore := scans_field level field.1 hfields.1 (endsNumber_fields level _ hrest) (ih hfields.2)
    simp only [List.map_cons, prettyFields, String.toList_append, List.append_assoc, fieldTokens,
      List.cons_append]
    exact (hmore.line level).mark (c := ',') (by decide) (fun _ => rfl)

end Rows

theorem written_bool (b : Bool) : Written (.bool b) := by
  intro level rest ts hrest h
  rw [prettyAt, tokens]
  cases b with
  | true =>
    show Scans ('t' :: 'r' :: 'u' :: 'e' :: rest) (.bool true :: ts)
    exact h.token (by decide) rfl (Nat.le_add_right _ 3)
  | false =>
    show Scans ('f' :: 'a' :: 'l' :: 's' :: 'e' :: rest) (.bool false :: ts)
    exact h.token (by decide) rfl (Nat.le_add_right _ 4)

/-- The items stand on lines of their own, which are indented by one level more. -/
theorem written_array {items : List Json} (hitems : ∀ item ∈ items, Written item) :
    Written (.array items) := by
  intro level rest ts hrest h
  have hclose : Scans (']' :: rest) (.closeBracket :: ts) := h.mark (by decide) fun _ => rfl
  cases items with
  | nil =>
    rw [prettyAt, tokens]
    exact hclose.mark (c := '[') (by decide) fun _ => rfl
  | cons item items =>
    rw [List.forall_mem_cons] at hitems
    have hline := endsNumber_cons (c := '\n') (by decide) ((indentation level).toList ++ ']' :: rest)
    have hmore := scans_items (level + 1) hitems.2 hline (hclose.line level)
    have hitem := hitems.1 (level + 1) _ _ (endsNumber_items (level + 1) items hline) hmore
    have hopen := (hitem.line (level + 1)).mark (c := '[') (t := .openBracket) (by decide) fun _ => rfl
    simp only [prettyAt, tokens, String.toList_append, List.append_assoc, List.cons_append,
      List.nil_append]
    exact hopen

theorem written_ofFields {fields : List (String × Json)} (hfields : ∀ f ∈ fields, Written f.2) :
    Written (ofFields fields) := by
  intro level rest ts hrest h
  have hclose : Scans ('\x7d' :: rest) (.closeBrace :: ts) := h.mark (by decide) fun _ => rfl
  cases fields with
  | nil =>
    rw [ofFields, List.map_nil, prettyAt, tokens]
    exact hclose.mark (c := '\x7b') (by decide) fun _ => rfl
  | cons field fields =>
    rw [List.forall_mem_cons] at hfields
    have hline := endsNumber_cons (c := '\n') (by decide) ((indentation level).toList ++ '\x7d' :: rest)
    have hmore := scans_fields (level + 1) hfields.2 hline (hclose.line level)
    have hfield := scans_field (level + 1) field.1 hfields.1 (endsNumber_fields (level + 1) _ hline) hmore
    have hopen := (hfield.line (level + 1)).mark (c := '\x7b') (t := .openBrace) (by decide) fun _ => rfl
    simp only [ofFields, List.map_cons, prettyAt, tokens, String.toList_append, List.append_assoc,
      List.cons_append, List.nil_append]
    exact hopen

/-- What is written for a document is cut into its tokens. -/
theorem Built.written {j : Json} (h : Built j) : Written j := by
  induction h with
  | null =>
    intro level rest ts hrest h
    rw [prettyAt, tokens]
    show Scans ('n' :: 'u' :: 'l' :: 'l' :: rest) (.null :: ts)
    exact h.token (by decide) rfl (Nat.le_add_right _ 3)
  | bool b => exact written_bool b
  | text s =>
    intro level rest ts hrest h
    simp only [ofText, prettyAt, tokens, String.toList_append, List.append_assoc]
    exact h.text s
  | int n =>
    intro level rest ts hrest h
    rw [ofInt, prettyAt, tokens]
    exact h.int n hrest
  | array _ ih => exact written_array ih
  | fields _ ih => exact written_ofFields ih

/-! ## Putting tokens together -/

/-- Whether the tokens of a document are put together to it, whatever follows. Each token takes at most two
rounds. -/
def Parses (j : Json) : Prop := ∀ fuel rest, 2 * j.tokens.length ≤ fuel →
  ofTokens fuel (j.tokens ++ rest) = some (j, rest)

/-- No document begins as an array ends. -/
theorem exists_tokens_cons (j : Json) : ∃ t ts, j.tokens = t :: ts ∧ t ≠ .closeBracket := by
  cases j with
  | null => exact ⟨.null, _, by rw [tokens], nofun⟩
  | bool b => exact ⟨.bool b, _, by rw [tokens], nofun⟩
  | number literal => exact ⟨.number literal, _, by rw [tokens], nofun⟩
  | string literal => exact ⟨.string literal, _, by rw [tokens], nofun⟩
  | array items => cases items <;> exact ⟨.openBracket, _, by rw [tokens], nofun⟩
  | object fields => cases fields <;> exact ⟨.openBrace, _, by rw [tokens], nofun⟩

theorem itemsOfTokens_tokens {item : Json} {items : List Json} (hitem : Parses item)
    (hitems : ∀ item ∈ items, Parses item) (fuel : Nat) (rest : List Token)
    (h : 2 * (item.tokens.length + (itemTokens items).length) ≤ fuel) :
    itemsOfTokens (fuel + 1) (item.tokens ++ (itemTokens items ++ .closeBracket :: rest)) =
      some (item :: items, rest) := by
  induction items generalizing item fuel with
  | nil =>
    rw [itemsOfTokens, itemTokens, hitem _ _ (by omega)]
    rfl
  | cons next items ih =>
    rw [List.forall_mem_cons] at hitems
    rw [itemTokens, List.length_cons, List.length_append] at h
    obtain ⟨fuel, rfl⟩ : ∃ less, fuel = less + 1 := ⟨fuel - 1, by omega⟩
    have hmore := ih hitems.1 hitems.2 fuel (by omega)
    rw [itemsOfTokens, hitem _ _ (by omega), itemTokens]
    simp only [List.cons_append, List.append_assoc, hmore, Option.map_some]

theorem fieldsOfTokens_tokens {field : String × Json} {fields : List (String × Json)}
    (hfield : Parses field.2) (hfields : ∀ f ∈ fields, Parses f.2) (fuel : Nat) (rest : List Token)
    (h : 2 * (field.2.tokens.length + (fieldTokens fields).length) ≤ fuel) :
    fieldsOfTokens (fuel + 1) (.string field.1 :: .colon ::
      (field.2.tokens ++ (fieldTokens fields ++ .closeBrace :: rest))) = some (field :: fields, rest) := by
  induction fields generalizing field fuel with
  | nil =>
    rw [fieldsOfTokens, fieldTokens, hfield _ _ (by omega)]
    rfl
  | cons next fields ih =>
    rw [List.forall_mem_cons] at hfields
    rw [fieldTokens, List.length_cons, List.length_cons, List.length_cons, List.length_append] at h
    obtain ⟨fuel, rfl⟩ : ∃ less, fuel = less + 1 := ⟨fuel - 1, by omega⟩
    have hmore := ih hfields.1 hfields.2 fuel (by omega)
    rw [fieldsOfTokens, hfield _ _ (by omega), fieldTokens]
    simp only [List.cons_append, List.append_assoc, hmore, Option.map_some]

theorem parses_of {j : Json} (h : ∀ fuel rest, 2 * j.tokens.length ≤ fuel + 2 →
    ofTokens (fuel + 2) (j.tokens ++ rest) = some (j, rest)) : Parses j := by
  intro fuel rest hfuel
  obtain ⟨t, ts, htokens, -⟩ := exists_tokens_cons j
  have hpos : 0 < j.tokens.length := by
    rw [htokens]
    exact Nat.zero_lt_succ _
  obtain ⟨less, rfl⟩ : ∃ less, fuel = less + 2 := ⟨fuel - 2, by omega⟩
  exact h less rest hfuel

theorem parses_array {items : List Json} (hitems : ∀ item ∈ items, Parses item) :
    Parses (.array items) := by
  refine parses_of fun fuel rest hfuel => ?_
  cases items with
  | nil =>
    rw [tokens]
    rfl
  | cons item items =>
    rw [List.forall_mem_cons] at hitems
    rw [tokens, List.length_cons, List.length_append, List.length_append, List.length_singleton] at hfuel
    have hrow := itemsOfTokens_tokens hitems.1 hitems.2 fuel rest (by omega)
    obtain ⟨t, ts, htokens, hopen⟩ := exists_tokens_cons item
    simp only [tokens, List.cons_append, List.append_assoc, List.nil_append]
    rw [htokens] at hrow ⊢
    rw [List.cons_append] at hrow ⊢
    rw [ofTokens, hrow]
    · rfl
    · exact fun more heq => hopen (List.cons.inj heq).1

theorem parses_ofFields {fields : List (String × Json)} (hfields : ∀ f ∈ fields, Parses f.2) :
    Parses (ofFields fields) := by
  refine parses_of fun fuel rest hfuel => ?_
  cases fields with
  | nil =>
    rw [ofFields, List.map_nil, tokens]
    rfl
  | cons field fields =>
    rw [List.forall_mem_cons] at hfields
    rw [ofFields, List.map_cons, tokens, List.length_cons, List.length_cons, List.length_cons,
      List.length_append, List.length_append, List.length_singleton] at hfuel
    have hrow := @fieldsOfTokens_tokens (escape field.1, field.2)
      (fields.map fun f => (escape f.1, f.2)) hfields.1 (List.forall_mem_map.mpr hfields.2) fuel rest
      (by dsimp only; omega)
    simp only [ofFields, List.map_cons, tokens, List.cons_append, List.append_assoc, List.nil_append]
    rw [ofTokens, hrow]
    · rfl
    · intro more heq
      cases heq

/-- The tokens of a document are put together to it. -/
theorem Built.parses {j : Json} (h : Built j) : Parses j := by
  induction h with
  | null => exact parses_of fun fuel rest _ => by rw [tokens]; rfl
  | bool b => exact parses_of fun fuel rest _ => by rw [tokens]; rfl
  | text s => exact parses_of fun fuel rest _ => by rw [ofText, tokens]; rfl
  | int n => exact parses_of fun fuel rest _ => by rw [ofInt, tokens]; rfl
  | array _ ih => exact parses_array ih
  | fields _ ih => exact parses_ofFields ih

/-! ## Whole texts -/

/-- What is written for a document, and blanks behind it, is read as the document. -/
theorem Built.read?_pretty {j : Json} (h : Built j) {blanks : String}
    (hblanks : ∀ c ∈ blanks.toList, Token.isSpace c = true) :
    read? (j.pretty ++ blanks) = some j := by
  have hends : Token.EndsNumber blanks.toList := by
    intro c hc
    have hspace := hblanks c (List.mem_of_mem_head? hc)
    simp only [Token.isSpace, Bool.or_eq_true, decide_eq_true_eq] at hspace
    rcases hspace with ((rfl | rfl) | rfl) | rfl <;> decide
  have htail : Scans blanks.toList [] := by
    simpa using Scans.nil.blanks hblanks
  have hscan : Token.scan (j.pretty ++ blanks).toList = some j.tokens := by
    have hall := h.written 0 blanks.toList [] hends htail
    rw [← String.toList_append, List.append_nil] at hall
    exact hall _ (Nat.le_refl _)
  have hparse := h.parses (2 * j.tokens.length + 2) [] (by omega)
  rw [List.append_nil] at hparse
  rw [read?, hscan]
  simp [hparse]

end RouteFleet.Json
