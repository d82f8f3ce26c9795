import RouteFleet.Proofs.Route.Shown
import RouteFleet.Validation.Rule

/-! # What the rules ask of a text

The rules for the fields of a route, said with the library's own characters and lists: how many
characters there are, of which class, and what stands between the separators. Each test of
`RouteFleet.Rule` decides its rule, for every text (`Rule.isName_iff`, `Rule.isDomain_iff`,
`Rule.isBackendUrl_iff`, `Rule.isIpEntry_iff` and the like).
-/

namespace RouteFleet

namespace Text

/-! ## Characters and pieces -/

theorem isLetter_eq_isAlpha (c : Char) : isLetter c = c.isAlpha := by
  have halpha : c.isAlpha = (c.isUpper || c.isLower) := rfl
  have hupper : c.isUpper = decide (c.val ≥ 65 ∧ c.val ≤ 90) := rfl
  rw [halpha, hupper, isLetter, Bool.or_comm, Bool.decide_and]
  rfl

theorem isDigit_eq_isDigit (c : Char) : isDigit c = c.isDigit := rfl

theorem isAlnum_eq_isAlphanum (c : Char) : isAlnum c = c.isAlphanum := by
  rw [isAlnum, isLetter_eq_isAlpha, isDigit_eq_isDigit, Char.isAlphanum]

/-- Pieces are what the library cuts a list into. -/
theorem pieces_eq_splitOn (sep : Char) (cs : List Char) : pieces sep cs = cs.splitOn sep := by
  rw [List.splitOn_eq_splitOnP]
  induction cs with
  | nil => rw [List.splitOnP_nil, pieces_nil]
  | cons c cs ih =>
    rw [List.splitOnP_cons_eq_if_modifyHead, pieces_cons, ← ih]
    by_cases hc : c = sep
    · simp [hc]
    · have hne : pieces sep cs ≠ [] := ih ▸ List.splitOnP_ne_nil _ cs
      obtain ⟨piece, more, hpieces⟩ := List.exists_cons_of_ne_nil hne
      rw [if_neg hc, if_neg (by simpa using hc), hpieces]
      rfl

end Text

namespace Rule

open Text

/-! ## Shapes -/

/-- From `min` to `max` characters, of each of which `p` holds. -/
def Spelled (min max : Nat) (p : Char → Prop) (cs : List Char) : Prop :=
  (min ≤ cs.length ∧ cs.length ≤ max) ∧ ∀ c ∈ cs, p c

/-- A name: 3 to 32 letters, digits or hyphens. -/
def NameShape (s : String) : Prop := Spelled 3 32 (fun c => c.isAlphanum = true ∨ c = '-') s.toList

/-- A domain: cut at its dots, 3 to 64 labels, of which the last one has 2 to 6 letters and the others
have letters and digits and are not empty. -/
def DomainShape (s : String) : Prop :=
  ∃ labels top, s.toList.splitOn '.' = labels ++ [top] ∧
    (3 ≤ (labels ++ [top]).length ∧ (labels ++ [top]).length ≤ 64) ∧
    (∀ label ∈ labels, label ≠ [] ∧ ∀ c ∈ label, c.isAlphanum = true) ∧
    Spelled 2 6 (·.isAlpha = true) top

/-- A backend: a scheme, a host that is not empty, a colon and at most 5 digits. -/
def BackendShape (s : String) : Prop :=
  ∃ scheme ∈ ["http://", "https://"], ∃ host port, s.toList = scheme.toList ++ host ++ ':' :: port ∧
    host ≠ [] ∧ (∀ c ∈ host, c.isAlphanum = true ∨ c = '.' ∨ c = '-') ∧
    Spelled 0 5 (·.isDigit = true) port

/-- A user's name: 3 to 32 letters or digits. -/
def UsernameShape (s : String) : Prop := Spelled 3 32 (·.isAlphanum = true) s.toList

/-- A password: 1 to 128 characters, none of which ends the line. -/
def PasswordShape (s : String) : Prop := Spelled 1 128 (· ≠ '\n') s.toList

/-- Four groups of 1 to 3 digits with dots between them. -/
def QuadShape (cs : List Char) : Prop :=
  ∃ groups, cs = ['.'].intercalate groups ∧ groups.length = 4 ∧
    ∀ group ∈ groups, Spelled 1 3 (·.isDigit = true) group

/-- An address, after which a slash and 1 or 2 digits may stand. -/
def IpShape (s : String) : Prop :=
  ∃ address bits, s.toList = address ++ bits ∧ QuadShape address ∧
    (bits = [] ∨ ∃ digits, bits = '/' :: digits ∧ Spelled 1 2 (·.isDigit = true) digits)

/-- A header's name: 1 to 64 letters, digits, underscores or hyphens. -/
def HeaderNameShape (s : String) : Prop :=
  Spelled 1 64 (fun c => c.isAlphanum = true ∨ c = '_' ∨ c = '-') s.toList

/-- A header's value: 3 to 128 characters, none of which ends the line. -/
def HeaderValueShape (s : String) : Prop := Spelled 3 128 (· ≠ '\n') s.toList

/-! ## Texts of one class of characters -/

section Spelled

variable {min max : Nat} {p : Char → Bool} {q : Char → Prop}

theorem spelled_iff (h : ∀ c, p c = true ↔ q c) (cs : List Char) :
    (min ≤ cs.length && cs.length ≤ max && cs.all p) = true ↔ Spelled min max q cs := by
  rw [Bool.and_eq_true, Bool.and_eq_true, decide_eq_true_eq, decide_eq_true_eq, List.all_eq_true,
    Spelled]
  exact and_congr_right fun _ => forall₂_congr fun c _ => h c

theorem within_iff (h : ∀ c, p c = true ↔ q c) {s : String} :
    within min max p s = true ↔ Spelled min max q s.toList := spelled_iff h s.toList

end Spelled

theorem isName_iff {s : String} : isName s = true ↔ NameShape s :=
  within_iff fun c => by rw [isAlnum_eq_isAlphanum, Bool.or_eq_true, beq_iff_eq]

theorem isUsername_iff {s : String} : isUsername s = true ↔ UsernameShape s :=
  within_iff fun c => by rw [isAlnum_eq_isAlphanum]

theorem isPassword_iff {s : String} : isPassword s = true ↔ PasswordShape s :=
  within_iff fun _ => bne_iff_ne

theorem isHeaderName_iff {s : String} : isHeaderName s = true ↔ HeaderNameShape s :=
  within_iff fun c => by
    rw [isAlnum_eq_isAlphanum, Bool.or_eq_true, Bool.or_eq_true, beq_iff_eq, beq_iff_eq, or_assoc]

theorem isHeaderValue_iff {s : String} : isHeaderValue s = true ↔ HeaderValueShape s :=
  within_iff fun _ => bne_iff_ne

/-! ## Domains -/

theorem isLabel_iff {cs : List Char} :
    isLabel cs = true ↔ cs ≠ [] ∧ ∀ c ∈ cs, c.isAlphanum = true := by
  rw [isLabel, Bool.and_eq_true, Bool.not_eq_true', List.isEmpty_eq_false_iff, List.all_eq_true]
  simp only [isAlnum_eq_isAlphanum]

theorem isTopLabel_iff {cs : List Char} : isTopLabel cs = true ↔ Spelled 2 6 (·.isAlpha = true) cs :=
  spelled_iff (fun c => by rw [isLetter_eq_isAlpha]) cs

theorem isDomain_iff {s : String} : isDomain s = true ↔ DomainShape s := by
  rw [isDomain, pieces_eq_splitOn, DomainShape]
  -- The test looks at the labels from the last one on.
  cases hlabels : (s.toList.splitOn '.').reverse with
  | nil =>
    constructor
    · intro h
      exact absurd h Bool.false_ne_true
    · rintro ⟨labels, top, hsplit, -⟩
      rw [hsplit] at hlabels
      simp at hlabels
  | cons top labels =>
    have hsplit : s.toList.splitOn '.' = labels.reverse ++ [top] := by
      rw [← List.reverse_cons, ← hlabels, List.reverse_reverse]
    simp only [Bool.and_eq_true, decide_eq_true_eq, isTopLabel_iff, List.all_eq_true, isLabel_iff]
    constructor
    · rintro ⟨⟨⟨hmin, hmax⟩, htop⟩, hrest⟩
      refine ⟨labels.reverse, top, hsplit, ?_, ?_, htop⟩
      · simp only [List.length_append, List.length_reverse, List.length_singleton]
        omega
      · intro label hlabel
        exact hrest label (List.mem_reverse.mp hlabel)
    · rintro ⟨labels', top', hsplit', hcount, hrest, htop⟩
      rw [hsplit] at hsplit'
      obtain ⟨rfl, htops⟩ := List.append_inj' hsplit' rfl
      obtain rfl := List.singleton_inj.mp htops
      simp only [List.length_append, List.length_reverse, List.length_singleton] at hcount
      refine ⟨⟨by omega, htop⟩, fun label hlabel => ?_⟩
      exact hrest label (List.mem_reverse.mpr hlabel)

/-! ## Backends -/

theorem afterScheme_eq_some_iff {s rest : String} :
    afterScheme s = some rest ↔ ∃ scheme ∈ ["http://", "https://"], s = scheme ++ rest := by
  simp only [List.mem_cons, List.not_mem_nil, or_false, exists_eq_or_imp, exists_eq_left]
  rw [afterScheme]
  split
  · rename_i plain hplain
    have hs := stripLead?_eq_some_iff.mp hplain
    constructor
    · intro h
      exact .inl (Option.some.inj h ▸ hs)
    · rintro (h | h)
      · rw [← hplain]
        exact stripLead?_eq_some_iff.mpr h
      · -- No text begins with both schemes.
        have hchars := congrArg String.toList (hs.symm.trans h)
        simp [String.toList_append] at hchars
  · rename_i hplain
    rw [stripLead?_eq_some_iff, or_iff_right]
    intro h
    rw [stripLead?_eq_some_iff.mpr h] at hplain
    exact nomatch hplain

theorem isBackendUrl_iff {s : String} : isBackendUrl s = true ↔ BackendShape s := by
  have hhost : ∀ host : List Char, (host.all fun c => isAlnum c || c == '.' || c == '-') = true ↔
      ∀ c ∈ host, c.isAlphanum = true ∨ c = '.' ∨ c = '-' := by
    intro host
    simp only [List.all_eq_true, Bool.or_eq_true, isAlnum_eq_isAlphanum, beq_iff_eq, or_assoc]
  constructor
  · intro h
    rw [isBackendUrl] at h
    split at h
    · exact absurd h Bool.false_ne_true
    rename_i rest hscheme
    split at h
    · exact absurd h Bool.false_ne_true
    rename_i host port hcut
    obtain ⟨scheme, hmem, rfl⟩ := afterScheme_eq_some_iff.mp hscheme
    simp only [Bool.and_eq_true, Bool.not_eq_true', List.isEmpty_eq_false_iff, hhost,
      decide_eq_true_eq, List.all_eq_true] at h
    obtain ⟨⟨⟨hne, hclass⟩, hmax⟩, hdigits⟩ := h
    refine ⟨scheme, hmem, host, port, ?_, hne, hclass, ⟨Nat.zero_le _, hmax⟩, hdigits⟩
    rw [String.toList_append, (append_of_cutFirst hcut).1, List.append_assoc]
  · rintro ⟨scheme, hmem, host, port, hs, hne, hclass, ⟨-, hmax⟩, hdigits⟩
    have hrest : s = scheme ++ String.ofList (host ++ ':' :: port) := by
      apply String.toList_inj.mp
      rw [hs, String.toList_append, String.toList_ofList, List.append_assoc]
    have hcolon : ':' ∉ host := by
      intro hcolon
      exact absurd (hclass _ hcolon) (by decide)
    rw [isBackendUrl, afterScheme_eq_some_iff.mpr ⟨scheme, hmem, hrest⟩]
    simp only [String.toList_ofList, cutFirst_append hcolon]
    simp only [Bool.and_eq_true, Bool.not_eq_true', List.isEmpty_eq_false_iff, hhost,
      decide_eq_true_eq, List.all_eq_true]
    exact ⟨⟨⟨hne, hclass⟩, hmax⟩, hdigits⟩

/-! ## Addresses -/

theorem isOctet_iff {cs : List Char} : isOctet cs = true ↔ Spelled 1 3 (·.isDigit = true) cs :=
  spelled_iff (fun c => by rw [isDigit_eq_isDigit]) cs

theorem isDottedQuad_iff {cs : List Char} : isDottedQuad cs = true ↔ QuadShape cs := by
  rw [isDottedQuad, pieces_eq_splitOn, Bool.and_eq_true, beq_iff_eq, List.all_eq_true]
  simp only [isOctet_iff]
  constructor
  · rintro ⟨hcount, hgroups⟩
    exact ⟨_, (List.intercalate_splitOn '.').symm, hcount, hgroups⟩
  · rintro ⟨groups, rfl, hcount, hgroups⟩
    have hdots : ∀ group ∈ groups, '.' ∉ group := by
      intro group hgroup hdot
      exact absurd ((hgroups group hgroup).2 _ hdot) (by decide)
    have hne : groups ≠ [] := List.ne_nil_of_length_eq_add_one hcount
    rw [List.splitOn_intercalate '.' hdots hne]
    exact ⟨hcount, hgroups⟩

theorem isIpEntry_iff {s : String} : isIpEntry s = true ↔ IpShape s := by
  constructor
  · intro h
    rw [isIpEntry] at h
    split at h
    · exact ⟨s.toList, [], (List.append_nil _).symm, isDottedQuad_iff.mp h, .inl rfl⟩
    · rename_i address digits hcut
      simp only [Bool.and_eq_true, decide_eq_true_eq, List.all_eq_true, and_assoc] at h
      obtain ⟨haddress, hmin, hmax, hdigits⟩ := h
      exact ⟨address, '/' :: digits, (append_of_cutFirst hcut).1, isDottedQuad_iff.mp haddress,
        .inr ⟨digits, rfl, ⟨hmin, hmax⟩, hdigits⟩⟩
  · rintro ⟨address, bits, hs, haddress, hbits⟩
    rw [← isDottedQuad_iff] at haddress
    have hslash : '/' ∉ address := by
      intro hslash
      exact absurd ((isDottedQuad_spec haddress).2 _ hslash) (by decide)
    rw [isIpEntry, hs]
    rcases hbits with rfl | ⟨digits, rfl, ⟨hmin, hmax⟩, hdigits⟩
    · rw [List.append_nil, cutFirst_eq_none.mpr hslash]
      exact haddress
    · rw [cutFirst_append hslash]
      simp only [Bool.and_eq_true, decide_eq_true_eq, List.all_eq_true, and_assoc]
      exact ⟨haddress, hmin, hmax, hdigits⟩

/-! ## Deciding -/

section Decidable

variable (s : String)

instance decidableNameShape : Decidable (NameShape s) := decidable_of_iff _ isName_iff

instance decidableDomainShape : Decidable (DomainShape s) := decidable_of_iff _ isDomain_iff

instance decidableBackendShape : Decidable (BackendShape s) := decidable_of_iff _ isBackendUrl_iff

instance decidableUsernameShape : Decidable (UsernameShape s) := decidable_of_iff _ isUsername_iff

instance decidablePasswordShape : Decidable (PasswordShape s) := decidable_of_iff _ isPassword_iff

instance decidableIpShape : Decidable (IpShape s) := decidable_of_iff _ isIpEntry_iff

instance decidableHeaderNameShape : Decidable (HeaderNameShape s) := decidable_of_iff _ isHeaderName_iff

instance decidableHeaderValueShape : Decidable (HeaderValueShape s) :=
  decidable_of_iff _ isHeaderValue_iff

end Decidable

end Rule

end RouteFleet
