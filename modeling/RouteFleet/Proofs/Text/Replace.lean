import RouteFleet.Text.Split

/-! # Replacing twice

What is put in for a text may, together with what stands around it, spell that text again. It does not if
it is not empty and shares no character with the text (`Text.occursIn_substitute`); then there is nothing
left to replace, whatever is to be put in the second time (`Text.replaceAll_replaceAll`).
-/

namespace RouteFleet.Text

variable {pat new : List Char}

/-! ## What is not there is not replaced -/

theorem substitute_eq_self {cs : List Char} (h : occursIn pat cs = false) :
    substitute pat new 0 cs = cs := by
  induction cs with
  | nil => rfl
  | cons c cs ih =>
    rw [occursIn_cons, Bool.or_eq_false_iff] at h
    rw [substitute_zero, h.1, Bool.false_and, if_neg Bool.false_ne_true, ih h.2]

/-! ## What replacing leaves -/

section Disjoint

variable (hnew : new ≠ []) (hdisjoint : ∀ c ∈ new, c ∉ pat)

include hnew hdisjoint

/-- What replacing leaves begins only with such characters of the text that was looked for as stood there
before: the first character of what was put in is not among them. -/
theorem prefix_of_prefix_substitute {lead cs : List Char} (hlead : ∀ c ∈ lead, c ∈ pat)
    (h : lead <+: substitute pat new 0 cs) : lead <+: cs := by
  induction cs generalizing lead with
  | nil => exact h
  | cons c cs ih =>
    cases lead with
    | nil => exact List.nil_prefix
    | cons a lead =>
      obtain ⟨ha, hlead⟩ := List.forall_mem_cons.mp hlead
      rw [substitute_zero] at h
      split at h
      · cases new with
        | nil => exact absurd rfl hnew
        | cons b new =>
          obtain ⟨rfl, -⟩ := List.cons_prefix_cons.mp h
          exact absurd ha (hdisjoint a List.mem_cons_self)
      · obtain ⟨rfl, hrest⟩ := List.cons_prefix_cons.mp h
        exact List.cons_prefix_cons.mpr ⟨rfl, ih hlead hrest⟩

omit hnew in
/-- A text with a character that what stands before it has not occurs only after that. -/
theorem occursIn_append (hpat : pat ≠ []) (cs : List Char) : occursIn pat (new ++ cs) = occursIn pat cs := by
  induction new with
  | nil => rfl
  | cons b new ih =>
    obtain ⟨hb, hnew⟩ := List.forall_mem_cons.mp hdisjoint
    have hhead : pat.isPrefixOf (b :: (new ++ cs)) = false := by
      cases pat with
      | nil => exact absurd rfl hpat
      | cons p pat =>
        rw [Bool.eq_false_iff, ne_eq, List.isPrefixOf_iff_prefix, List.cons_prefix_cons]
        exact fun h => hb (h.1 ▸ List.mem_cons_self)
    rw [List.cons_append, occursIn_cons, hhead, Bool.false_or, ih hnew]

theorem occursIn_substitute (hpat : pat ≠ []) (skip : Nat) (cs : List Char) :
    occursIn pat (substitute pat new skip cs) = false := by
  have hempty : pat.isEmpty = false := List.isEmpty_eq_false_iff.mpr hpat
  induction cs generalizing skip with
  | nil => rwa [substitute_nil, occursIn_nil]
  | cons c cs ih =>
    cases skip with
    | succ skip => exact ih skip
    | zero =>
      by_cases hmet : pat.isPrefixOf (c :: cs) = true
      · rw [substitute_zero, if_pos (by rw [hmet, hempty]; rfl), occursIn_append hdisjoint hpat]
        exact ih _
      · have hstep : substitute pat new 0 (c :: cs) = c :: substitute pat new 0 cs := by
          rw [substitute_zero, if_neg (by simp [hmet])]
        have hhead : pat.isPrefixOf (c :: substitute pat new 0 cs) = false := by
          rw [Bool.eq_false_iff, ne_eq, List.isPrefixOf_iff_prefix, ← hstep]
          intro hbegins
          have hbefore := prefix_of_prefix_substitute hnew hdisjoint (fun _ h => h) hbegins
          exact hmet (List.isPrefixOf_iff_prefix.mpr hbefore)
        rw [hstep, occursIn_cons, hhead, Bool.false_or]
        exact ih 0

end Disjoint

/-- Where something is put in that shares no character with what it is put in for, replacing a second time
changes nothing. -/
theorem replaceAll_replaceAll {pat new : String} (hpat : pat ≠ "") (hnew : new ≠ "")
    (hdisjoint : ∀ c ∈ new.toList, c ∉ pat.toList) (new' s : String) :
    replaceAll pat new' (replaceAll pat new s) = replaceAll pat new s := by
  have hnone : occursIn pat.toList (substitute pat.toList new.toList 0 s.toList) = false :=
    occursIn_substitute (mt String.toList_eq_nil_iff.mp hnew) hdisjoint
      (mt String.toList_eq_nil_iff.mp hpat) 0 s.toList
  rw [replaceAll, replaceAll, String.toList_ofList, substitute_eq_self hnone]

end RouteFleet.Text
