import RouteFleet.Text.Split

/-! # Cutting and replacing

Text that is put together around a separator comes apart again (`Text.splitFirst_append`,
`Text.splitLast_append`), also at its beginning (`Text.prefix_append_cons_iff`) and into all its pieces
(`Text.pieces_append_cons`). What has no separator in it stands on one side of it
(`Text.infix_append_cons_iff`). Replacing by something never leaves nothing
(`Text.replaceAll_ne_empty`), and brings no other characters than those of the text and of what is put
in. A text does not get shorter than what is put in unless it was (`Text.le_length_substitute`), and it
grows only if what is put in is longer than what it is put in for (`Text.length_substitute_le`).
-/

namespace RouteFleet.Text

/-! ## Cutting -/

theorem splitFirst_append {sep : Char} {a : String} (h : sep ∉ a.toList) (b : String) :
    splitFirst sep (a ++ String.singleton sep ++ b) = some (a, b) := by
  have hcut : cutFirst sep (a.toList ++ sep :: b.toList) = some (a.toList, b.toList) :=
    cutFirst_append h b.toList
  simp [splitFirst, hcut]

theorem splitLast_append {sep : Char} {b : String} (h : sep ∉ b.toList) (a : String) :
    splitLast sep (a ++ String.singleton sep ++ b) = some (a, b) := by
  have hcut : cutLast sep (a.toList ++ sep :: b.toList) = some (a.toList, b.toList) := cutLast_append _ h
  simp [splitLast, hcut]

theorem splitLast_eq_none_iff {sep : Char} {s : String} : splitLast sep s = none ↔ sep ∉ s.toList := by
  rw [splitLast, Option.map_eq_none_iff, cutLast_eq_none]

theorem notMem_of_splitLast {sep : Char} {s a b : String} (h : splitLast sep s = some (a, b)) :
    sep ∉ b.toList := by
  obtain ⟨⟨x, y⟩, hcut, heq⟩ := Option.map_eq_some_iff.mp h
  obtain ⟨-, rfl⟩ := Prod.mk.inj heq
  rw [String.toList_ofList]
  exact (append_of_cutLast hcut).2

/-- What a separator follows begins as before with a lead that has no separator in it. -/
theorem prefix_append_cons_iff {sep : Char} {lead cs rest : List Char} (h : sep ∉ lead) :
    lead <+: cs ++ sep :: rest ↔ lead <+: cs := by
  induction lead generalizing cs with
  | nil => simp
  | cons a lead ih =>
    rw [List.mem_cons, not_or] at h
    cases cs with
    | nil => simp [Ne.symm h.1]
    | cons d cs => rw [List.cons_append, List.cons_prefix_cons, List.cons_prefix_cons, ih h.2]

/-- What a separator follows begins with a lead that ends with one if it is all of the lead before the
separator, or begins with the lead itself. -/
theorem concat_prefix_append_cons_iff {sep : Char} {lead cs rest : List Char} (h : sep ∉ lead) :
    lead ++ [sep] <+: cs ++ sep :: rest ↔ cs = lead ∨ lead ++ [sep] <+: cs := by
  induction lead generalizing cs with
  | nil => cases cs <;> simp
  | cons a lead ih =>
    rw [List.mem_cons, not_or] at h
    cases cs with
    | nil => simp [Ne.symm h.1]
    | cons d cs =>
      rw [List.cons_append, List.cons_append, List.cons_prefix_cons, List.cons_prefix_cons, ih h.2,
        List.cons.injEq, eq_comm (a := d)]
      exact and_or_left

/-- A text begins with a lead and a separator, which the lead is free of, exactly if the lead is what is
cut off at the separator. -/
theorem beginsWith_append_iff {sep : Char} {a : String} (h : sep ∉ a.toList) {s : String} :
    beginsWith (a ++ String.singleton sep) s = true ↔ ∃ b, splitFirst sep s = some (a, b) := by
  rw [beginsWith, List.isPrefixOf_iff_prefix]
  constructor
  · rintro ⟨rest, hrest⟩
    have hs : s = a ++ String.singleton sep ++ String.ofList rest :=
      String.toList_inj.mp (by rw [← hrest]; simp)
    exact ⟨String.ofList rest, hs ▸ splitFirst_append h _⟩
  · rintro ⟨b, hb⟩
    exact ⟨b.toList, by rw [append_of_splitFirst hb]; simp⟩

/-! ## Pieces -/

/-- A text without the separator is one piece. -/
theorem pieces_of_notMem {sep : Char} {cs : List Char} (h : sep ∉ cs) : pieces sep cs = [cs] := by
  induction cs with
  | nil => rfl
  | cons c cs ih =>
    rw [List.mem_cons, not_or] at h
    rw [pieces_cons, if_neg (Ne.symm h.1), ih h.2]

theorem pieces_ne_nil (sep : Char) (cs : List Char) : pieces sep cs ≠ [] := by
  cases cs with
  | nil => exact List.cons_ne_nil _ _
  | cons c cs =>
    rw [pieces_cons]
    split
    · exact List.cons_ne_nil _ _
    · split <;> exact List.cons_ne_nil _ _

/-- A separator is where pieces are put together. -/
theorem pieces_append_cons (sep : Char) (a b : List Char) :
    pieces sep (a ++ sep :: b) = pieces sep a ++ pieces sep b := by
  induction a with
  | nil =>
    rw [List.nil_append]
    exact if_pos rfl
  | cons c a ih =>
    rw [List.cons_append, pieces_cons, ih, pieces_cons]
    by_cases hc : c = sep
    · rw [if_pos hc, if_pos hc, List.cons_append]
    · obtain ⟨p, ps, hpieces⟩ := List.exists_cons_of_ne_nil (pieces_ne_nil sep a)
      rw [if_neg hc, if_neg hc, hpieces]
      rfl

/-- What has no separator in it goes to the first piece of what follows it. -/
theorem pieces_append_of_notMem {sep : Char} {a b p : List Char} {ps : List (List Char)} (ha : sep ∉ a)
    (hb : pieces sep b = p :: ps) : pieces sep (a ++ b) = (a ++ p) :: ps := by
  induction a with
  | nil => exact hb
  | cons c a ih =>
    rw [List.mem_cons, not_or] at ha
    rw [List.cons_append, pieces_cons, if_neg (Ne.symm ha.1), ih ha.2]
    rfl

/-- The last piece is empty only if a text is empty or ends with the separator. -/
theorem getLast?_of_getLast?_pieces {sep : Char} {cs : List Char}
    (h : (pieces sep cs).getLast? = some []) : cs = [] ∨ cs.getLast? = some sep := by
  have hcons : ∀ {c : Char} {cs : List Char}, cs = [] ∨ cs.getLast? = some sep →
      (cs = [] → c = sep) → (c :: cs).getLast? = some sep := by
    rintro c cs (rfl | hlast) hnil
    · rw [hnil rfl, List.getLast?_singleton]
    · rw [List.getLast?_cons, hlast, Option.getD_some]
  induction cs with
  | nil => exact .inl rfl
  | cons c cs ih =>
    refine .inr ?_
    rw [pieces_cons] at h
    obtain ⟨p, ps, hpieces⟩ := List.exists_cons_of_ne_nil (pieces_ne_nil sep cs)
    rw [hpieces] at h ih
    split at h
    · rename_i hc
      exact hcons (ih (by rwa [List.getLast?_cons_cons] at h)) fun _ => hc
    · cases ps with
      | nil => cases h
      | cons q qs =>
        refine hcons (ih (by rwa [List.getLast?_cons_cons] at h ⊢)) fun hnil => ?_
        rw [hnil] at hpieces
        cases hpieces

theorem length_pieces_le (sep : Char) (cs : List Char) : (pieces sep cs).length ≤ cs.length + 1 := by
  induction cs with
  | nil => exact Nat.le_refl _
  | cons c cs ih =>
    rw [pieces_cons]
    split
    · exact Nat.succ_le_succ ih
    · split
      · exact Nat.succ_le_succ (Nat.zero_le _)
      · rename_i p ps heq
        rw [heq] at ih
        exact Nat.le_succ_of_le ih

/-- Each character but the separator is in one of the pieces. -/
theorem exists_mem_pieces {sep : Char} {cs : List Char} {c : Char} (h : c ∈ cs) :
    c = sep ∨ ∃ p ∈ pieces sep cs, c ∈ p := by
  induction cs with
  | nil => exact absurd h List.not_mem_nil
  | cons d cs ih =>
    rw [pieces_cons]
    rcases List.mem_cons.mp h with rfl | hrest
    · split
      · rename_i heq
        exact .inl heq
      · split
        · exact .inr ⟨_, List.mem_singleton_self _, List.mem_singleton_self _⟩
        · exact .inr ⟨_, List.mem_cons_self, List.mem_cons_self⟩
    · rcases ih hrest with heq | ⟨p, hp, hmem⟩
      · exact .inl heq
      · split
        · exact .inr ⟨p, List.mem_cons_of_mem _ hp, hmem⟩
        · split
          · rename_i hnone
            rw [hnone] at hp
            exact absurd hp List.not_mem_nil
          · rename_i q ps hsome
            rw [hsome] at hp
            rcases List.mem_cons.mp hp with rfl | hp
            · exact .inr ⟨_, List.mem_cons_self, List.mem_cons_of_mem _ hmem⟩
            · exact .inr ⟨p, List.mem_cons_of_mem _ hp, hmem⟩

/-- A piece has no other characters than those of the text, and not the separator. -/
theorem mem_of_mem_pieces {sep : Char} {cs p : List Char} {c : Char} (hp : p ∈ pieces sep cs) (hc : c ∈ p) :
    c ∈ cs ∧ c ≠ sep := by
  induction cs generalizing p with
  | nil =>
    obtain rfl := List.mem_singleton.mp hp
    exact absurd hc List.not_mem_nil
  | cons d cs ih =>
    obtain ⟨q, qs, hpieces⟩ := List.exists_cons_of_ne_nil (pieces_ne_nil sep cs)
    rw [pieces_cons] at hp
    rw [hpieces] at hp ih
    have hrest : ∀ {p}, p ∈ q :: qs → c ∈ p → c ∈ d :: cs ∧ c ≠ sep := fun hp hc =>
      (ih hp hc).imp_left (List.mem_cons_of_mem d)
    split at hp
    · rcases List.mem_cons.mp hp with rfl | hp
      · exact absurd hc List.not_mem_nil
      · exact hrest hp hc
    · rename_i hd
      rcases List.mem_cons.mp hp with rfl | hp
      · rcases List.mem_cons.mp hc with rfl | hc
        · exact ⟨List.mem_cons_self, hd⟩
        · exact hrest List.mem_cons_self hc
      · exact hrest (List.mem_cons_of_mem q hp) hc

/-! ## Occurrences -/

theorem occursIn_iff {pat cs : List Char} : occursIn pat cs = true ↔ pat <:+: cs := by
  induction cs with
  | nil => rw [occursIn_nil, List.isEmpty_iff, List.infix_nil]
  | cons c cs ih => rw [occursIn_cons, Bool.or_eq_true, List.isPrefixOf_iff_prefix, ih, List.infix_cons_iff]

/-- What has no separator in it stands on one side of it. -/
theorem infix_append_cons_iff {sep : Char} {pat a b : List Char} (h : sep ∉ pat) :
    pat <:+: a ++ sep :: b ↔ pat <:+: a ∨ pat <:+: b := by
  induction a with
  | nil =>
    have hprefix : pat <+: sep :: b ↔ pat <+: [] := @prefix_append_cons_iff sep pat [] b h
    rw [List.nil_append, List.infix_cons_iff, hprefix, List.prefix_nil, List.infix_nil]
  | cons c a ih =>
    rw [List.cons_append, List.infix_cons_iff, List.infix_cons_iff, ih, ← List.cons_append,
      prefix_append_cons_iff h, or_assoc]

/-! ## Replacing -/

theorem substitute_ne_nil {pat new : List Char} (h : new ≠ []) (c : Char) (cs : List Char) :
    substitute pat new 0 (c :: cs) ≠ [] := by
  rw [substitute_zero]
  split
  · simp [h]
  · simp

theorem mem_of_mem_substitute {pat new cs : List Char} {skip : Nat} {c : Char}
    (h : c ∈ substitute pat new skip cs) : c ∈ new ∨ c ∈ cs := by
  induction cs generalizing skip with
  | nil =>
    rw [substitute_nil] at h
    exact .inr h
  | cons d cs ih =>
    cases skip with
    | succ skip =>
      rw [substitute_succ] at h
      exact (ih h).imp_right (List.mem_cons_of_mem d)
    | zero =>
      rw [substitute_zero] at h
      split at h
      · rcases List.mem_append.mp h with hnew | hrest
        · exact .inl hnew
        · exact (ih hrest).imp_right (List.mem_cons_of_mem d)
      · rcases List.mem_cons.mp h with rfl | hrest
        · exact .inr List.mem_cons_self
        · exact (ih hrest).imp_right (List.mem_cons_of_mem d)

theorem le_length_substitute {pat new cs : List Char} {k : Nat} (hnew : k ≤ new.length)
    (hcs : k ≤ cs.length) : k ≤ (substitute pat new 0 cs).length := by
  induction cs generalizing k with
  | nil => exact hcs
  | cons c cs ih =>
    rw [substitute_zero]
    split
    · rw [List.length_append]
      exact Nat.le_trans hnew (Nat.le_add_right _ _)
    · cases k with
      | zero => exact Nat.zero_le _
      | succ k => exact Nat.succ_le_succ (ih (Nat.le_of_succ_le hnew) (Nat.le_of_succ_le_succ hcs))

/-- What is passed over of a `pat` makes up for what was put in. -/
theorem length_substitute_le {pat new cs : List Char} (h : new.length ≤ pat.length) {skip : Nat}
    (hskip : skip ≤ cs.length) : (substitute pat new skip cs).length + skip ≤ cs.length := by
  induction cs generalizing skip with
  | nil =>
    rw [substitute_nil]
    simpa using hskip
  | cons c cs ih =>
    cases skip with
    | succ skip =>
      rw [substitute_succ]
      exact Nat.succ_le_succ (ih (Nat.le_of_succ_le_succ hskip))
    | zero =>
      rw [substitute_zero, List.length_cons]
      split
      · rename_i hmet
        rw [Bool.and_eq_true, List.isPrefixOf_iff_prefix, Bool.not_eq_true',
          List.isEmpty_eq_false_iff] at hmet
        have hpat := List.length_pos_iff.mpr hmet.2
        have hfits := hmet.1.length_le
        rw [List.length_cons] at hfits
        have hrest := @ih (pat.length - 1) (by omega)
        rw [List.length_append]
        omega
      · exact Nat.succ_le_succ (ih (Nat.zero_le _))

/-- Replacing something by something in a text that is not empty leaves a text that is not. -/
theorem replaceAll_ne_empty {pat new s : String} (hnew : new ≠ "") (hs : s ≠ "") :
    replaceAll pat new s ≠ "" := by
  cases hcs : s.toList with
  | nil => exact absurd (String.toList_eq_nil_iff.mp hcs) hs
  | cons c cs =>
    intro h
    rw [replaceAll, hcs, ← String.toList_eq_nil_iff, String.toList_ofList] at h
    exact substitute_ne_nil (fun h => hnew (String.toList_eq_nil_iff.mp h)) c cs h

end RouteFleet.Text
