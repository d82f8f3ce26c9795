/-! # Cutting text

Text is cut at a separator, at a fixed beginning or at a fixed end. Each cut is defined on the
list of characters and loses nothing: the parts and what was cut out, put together again, are the
text (`append_of_splitFirst`, `append_of_splitLast`, `append_of_stripLead`, `append_of_stripTail`).
-/

namespace RouteFleet.Text

/-! ## Characters -/

/-- An ASCII letter. -/
def isLetter (c : Char) : Bool := ('a' ≤ c && c ≤ 'z') || ('A' ≤ c && c ≤ 'Z')

/-- An ASCII digit. -/
def isDigit (c : Char) : Bool := '0' ≤ c && c ≤ '9'

/-- An ASCII letter or digit. -/
def isAlnum (c : Char) : Bool := isLetter c || isDigit c

/-- The value of a digit of a base up to sixteen. -/
def digitValue? (c : Char) : Option Nat :=
  if isDigit c then some (c.toNat - '0'.toNat)
  else if 'a' ≤ c && c ≤ 'f' then some (c.toNat - 'a'.toNat + 10)
  else if 'A' ≤ c && c ≤ 'F' then some (c.toNat - 'A'.toNat + 10)
  else none

/-- A hexadecimal digit. -/
def isHexDigit (c : Char) : Bool := (digitValue? c).isSome

/-- The number that the digits `cs` spell in base `base`; `none` for no digits or a foreign one. -/
def digits? (base : Nat) : List Char → Option Nat
  | [] => none
  | cs => cs.foldl (fun acc c =>
      match acc, digitValue? c with
      | some n, some d => if d < base then some (n * base + d) else none
      | _, _ => none) (some 0)

/-- The lower-case digit of a value below sixteen. -/
def hexDigit (n : Nat) : Char :=
  if n < 10 then Char.ofNat ('0'.toNat + n) else Char.ofNat ('a'.toNat + (n - 10))

/-- The `width` lowest hexadecimal digits of `n`, in lower case. -/
def hexDigits (width n : Nat) : List Char :=
  match width with
  | 0 => []
  | w + 1 => hexDigits w (n / 16) ++ [hexDigit (n % 16)]

/-! ## Separators -/

/-- The characters before and after the first `sep`. -/
def cutFirst (sep : Char) : List Char → Option (List Char × List Char)
  | [] => none
  | c :: rest =>
    if c = sep then some ([], rest) else (cutFirst sep rest).map fun p => (c :: p.1, p.2)

/-- The characters before and after the last `sep`. -/
def cutLast (sep : Char) : List Char → Option (List Char × List Char)
  | [] => none
  | c :: rest =>
    match cutLast sep rest with
    | some p => some (c :: p.1, p.2)
    | none => if c = sep then some ([], rest) else none

/-- The text before and after the first `sep`. -/
def splitFirst (sep : Char) (s : String) : Option (String × String) :=
  (cutFirst sep s.toList).map fun p => (String.ofList p.1, String.ofList p.2)

/-- The text before and after the last `sep`. -/
def splitLast (sep : Char) (s : String) : Option (String × String) :=
  (cutLast sep s.toList).map fun p => (String.ofList p.1, String.ofList p.2)

/-- The pieces between the separators; one more than there are separators. -/
def pieces (sep : Char) : List Char → List (List Char)
  | [] => [[]]
  | c :: rest =>
    if c = sep then [] :: pieces sep rest
    else match pieces sep rest with
      | [] => [[c]]
      | p :: ps => (c :: p) :: ps

theorem cutFirst_nil (sep : Char) : cutFirst sep [] = none := rfl

theorem cutFirst_cons (sep c : Char) (rest : List Char) : cutFirst sep (c :: rest) =
    if c = sep then some ([], rest) else (cutFirst sep rest).map fun p => (c :: p.1, p.2) := rfl

theorem cutLast_nil (sep : Char) : cutLast sep [] = none := rfl

theorem cutLast_cons (sep c : Char) (rest : List Char) : cutLast sep (c :: rest) =
    match cutLast sep rest with
    | some p => some (c :: p.1, p.2)
    | none => if c = sep then some ([], rest) else none := rfl

theorem pieces_nil (sep : Char) : pieces sep [] = [[]] := rfl

theorem pieces_cons (sep c : Char) (rest : List Char) : pieces sep (c :: rest) =
    if c = sep then [] :: pieces sep rest
    else match pieces sep rest with
      | [] => [[c]]
      | p :: ps => (c :: p) :: ps := rfl

theorem append_of_cutFirst {sep : Char} {cs a b : List Char} (h : cutFirst sep cs = some (a, b)) :
    cs = a ++ sep :: b ∧ sep ∉ a := by
  induction cs generalizing a b with
  | nil => simp [cutFirst_nil] at h
  | cons c rest ih =>
    by_cases hc : c = sep
    · simp only [cutFirst_cons, if_pos hc, Option.some.injEq, Prod.mk.injEq] at h
      obtain ⟨rfl, rfl⟩ := h
      simp [hc]
    · simp only [cutFirst_cons, if_neg hc, Option.map_eq_some_iff, Prod.mk.injEq] at h
      obtain ⟨⟨a', b'⟩, hr, rfl, rfl⟩ := h
      obtain ⟨rfl, hn⟩ := ih hr
      simp [hn, Ne.symm hc]

theorem cutFirst_append {sep : Char} {a : List Char} (h : sep ∉ a) (b : List Char) :
    cutFirst sep (a ++ sep :: b) = some (a, b) := by
  induction a with
  | nil => simp [cutFirst_cons]
  | cons c rest ih =>
    simp only [List.mem_cons, not_or] at h
    simp [cutFirst_cons, Ne.symm h.1, ih h.2]

theorem cutFirst_eq_none {sep : Char} {cs : List Char} : cutFirst sep cs = none ↔ sep ∉ cs := by
  induction cs with
  | nil => simp [cutFirst_nil]
  | cons c rest ih =>
    by_cases hc : c = sep
    · simp [cutFirst_cons, hc]
    · simp [cutFirst_cons, hc, ih, Ne.symm hc]

theorem cutLast_eq_none {sep : Char} {cs : List Char} : cutLast sep cs = none ↔ sep ∉ cs := by
  induction cs with
  | nil => simp [cutLast_nil]
  | cons c rest ih =>
    cases hr : cutLast sep rest with
    | some p =>
      have : sep ∈ rest := Decidable.byContradiction fun hn => by simp [ih.mpr hn] at hr
      simp [cutLast_cons, hr, this]
    | none =>
      have := ih.mp hr
      by_cases hc : c = sep
      · simp [cutLast_cons, hr, hc]
      · simp [cutLast_cons, hr, hc, this, Ne.symm hc]

theorem append_of_cutLast {sep : Char} {cs a b : List Char} (h : cutLast sep cs = some (a, b)) :
    cs = a ++ sep :: b ∧ sep ∉ b := by
  induction cs generalizing a b with
  | nil => simp [cutLast_nil] at h
  | cons c rest ih =>
    cases hr : cutLast sep rest with
    | some p =>
      simp only [cutLast_cons, hr, Option.some.injEq, Prod.mk.injEq] at h
      obtain ⟨rfl, rfl⟩ := h
      obtain ⟨heq, hn⟩ := ih (a := p.1) (b := p.2) (by simp [hr])
      exact ⟨by rw [heq]; simp, hn⟩
    | none =>
      by_cases hc : c = sep
      · simp only [cutLast_cons, hr, if_pos hc, Option.some.injEq, Prod.mk.injEq] at h
        obtain ⟨rfl, rfl⟩ := h
        exact ⟨by simp [hc], cutLast_eq_none.mp hr⟩
      · simp [cutLast_cons, hr, hc] at h

theorem cutLast_append {sep : Char} (a : List Char) {b : List Char} (h : sep ∉ b) :
    cutLast sep (a ++ sep :: b) = some (a, b) := by
  induction a with
  | nil => simp [cutLast_cons, cutLast_eq_none.mpr h]
  | cons c rest ih => simp [cutLast_cons, ih]

theorem append_of_splitFirst {sep : Char} {s a b : String} (h : splitFirst sep s = some (a, b)) :
    s = a ++ String.singleton sep ++ b := by
  simp only [splitFirst, Option.map_eq_some_iff, Prod.mk.injEq] at h
  obtain ⟨⟨x, y⟩, hcut, rfl, rfl⟩ := h
  apply String.toList_inj.mp
  simp [(append_of_cutFirst hcut).1]

theorem append_of_splitLast {sep : Char} {s a b : String} (h : splitLast sep s = some (a, b)) :
    s = a ++ String.singleton sep ++ b := by
  simp only [splitLast, Option.map_eq_some_iff, Prod.mk.injEq] at h
  obtain ⟨⟨x, y⟩, hcut, rfl, rfl⟩ := h
  apply String.toList_inj.mp
  simp [(append_of_cutLast hcut).1]

/-! ## Beginnings and ends -/

/-- What follows `lead` in a list that begins with it. -/
def dropLead? : (lead cs : List Char) → Option (List Char)
  | [], cs => some cs
  | _ :: _, [] => none
  | c :: lead, d :: cs => if c = d then dropLead? lead cs else none

/-- What follows `lead` in a text that begins with it. -/
def stripLead? (lead s : String) : Option String :=
  (dropLead? lead.toList s.toList).map String.ofList

/-- What precedes `tail` in a text that ends with it. -/
def stripTail? (tail s : String) : Option String :=
  (dropLead? tail.toList.reverse s.toList.reverse).map fun cs => String.ofList cs.reverse

/-- Whether `s` begins with `lead`. -/
def beginsWith (lead s : String) : Bool := lead.toList.isPrefixOf s.toList

/-- Whether `s` ends with `tail`. -/
def endsWith (tail s : String) : Bool := tail.toList.isSuffixOf s.toList

theorem dropLead?_eq_some_iff {lead cs rest : List Char} :
    dropLead? lead cs = some rest ↔ cs = lead ++ rest := by
  induction lead generalizing cs with
  | nil => simp [dropLead?, eq_comm]
  | cons c lead ih =>
    cases cs with
    | nil => simp [dropLead?]
    | cons d cs =>
      by_cases h : c = d
      · simp [dropLead?, h, ih]
      · simp [dropLead?, h, Ne.symm h]

theorem stripLead?_eq_some_iff {lead s rest : String} :
    stripLead? lead s = some rest ↔ s = lead ++ rest := by
  simp only [stripLead?, Option.map_eq_some_iff, dropLead?_eq_some_iff]
  constructor
  · rintro ⟨cs, h, rfl⟩
    exact String.toList_inj.mp (by simp [h])
  · rintro rfl
    exact ⟨rest.toList, by simp, by simp⟩

theorem stripTail?_eq_some_iff {tail s rest : String} :
    stripTail? tail s = some rest ↔ s = rest ++ tail := by
  simp only [stripTail?, Option.map_eq_some_iff, dropLead?_eq_some_iff]
  constructor
  · rintro ⟨cs, h, rfl⟩
    apply String.toList_inj.mp
    rw [← List.reverse_inj, h]
    simp
  · rintro rfl
    exact ⟨rest.toList.reverse, by simp, by simp⟩

theorem append_of_stripLead {lead s rest : String} (h : stripLead? lead s = some rest) :
    s = lead ++ rest := stripLead?_eq_some_iff.mp h

/-! ## Occurrences -/

/-- Whether `pat` stands somewhere in `cs`. -/
def occursIn (pat : List Char) : List Char → Bool
  | [] => pat.isEmpty
  | c :: rest => pat.isPrefixOf (c :: rest) || occursIn pat rest

theorem occursIn_nil (pat : List Char) : occursIn pat [] = pat.isEmpty := rfl

theorem occursIn_cons (pat : List Char) (c : Char) (rest : List Char) :
    occursIn pat (c :: rest) = (pat.isPrefixOf (c :: rest) || occursIn pat rest) := rfl

/-- Whether `pat` stands somewhere in `s`. -/
def contains (pat s : String) : Bool := occursIn pat.toList s.toList

/-- Reads from left to right and writes `new` for each `pat` met; the characters of a `pat` just
replaced, of which `skip` are left, are passed over. -/
def substitute (pat new : List Char) : Nat → List Char → List Char
  | _, [] => []
  | skip + 1, _ :: rest => substitute pat new skip rest
  | 0, c :: rest =>
    if pat.isPrefixOf (c :: rest) && !pat.isEmpty then
      new ++ substitute pat new (pat.length - 1) rest
    else c :: substitute pat new 0 rest

theorem substitute_nil (pat new : List Char) (skip : Nat) : substitute pat new skip [] = [] := by
  cases skip <;> rfl

theorem substitute_succ (pat new : List Char) (skip : Nat) (c : Char) (rest : List Char) :
    substitute pat new (skip + 1) (c :: rest) = substitute pat new skip rest := rfl

theorem substitute_zero (pat new : List Char) (c : Char) (rest : List Char) :
    substitute pat new 0 (c :: rest) =
      if pat.isPrefixOf (c :: rest) && !pat.isEmpty then
        new ++ substitute pat new (pat.length - 1) rest
      else c :: substitute pat new 0 rest := rfl

/-- Writes `new` for each `pat` in `s`, from left to right and without overlaps. -/
def replaceAll (pat new s : String) : String :=
  String.ofList (substitute pat.toList new.toList 0 s.toList)

/-! ## Joining and trimming -/

/-- Puts `sep` between the parts. -/
def joinWith (sep : String) : List String → String
  | [] => ""
  | [s] => s
  | s :: rest => s ++ sep ++ joinWith sep rest

/-- White space, as Unicode knows it. -/
def isBlank (c : Char) : Bool :=
  let n := c.toNat
  (0x09 ≤ n && n ≤ 0x0d) || n == 0x20 || n == 0x85 || n == 0xa0 || n == 0x1680 ||
  (0x2000 ≤ n && n ≤ 0x200a) || n == 0x2028 || n == 0x2029 || n == 0x202f || n == 0x205f ||
  n == 0x3000

/-- Drops white space at the end. -/
def trimEnd (s : String) : String :=
  String.ofList (s.toList.reverse.dropWhile isBlank).reverse

end RouteFleet.Text
