import RouteFleet.Hcl.Reading

/-! # What a reader takes, and what it can yield

What a reader does is said in two ways. That it takes something of a given text and leaves a given rest
(`ReadM.Takes`) is shown along its definition, step by step. What it can yield at all, wherever in a text
it begins (`ReadM.Yields`), follows from what its parts can yield: each way of putting readers together has
its lemma. What was kept before plays no part in either.
-/

namespace RouteFleet.Hcl.ReadM

variable {α β : Type}

theorem bind_eq_some_iff {p : ReadM α} {f : α → ReadM β} {r s : Reading} {b : β} :
    (p >>= f) r = some (b, s) ↔ ∃ a m, p r = some (a, m) ∧ f a m = some (b, s) := by
  change (p r).bind (fun am => f am.1 am.2) = some (b, s) ↔ _
  rw [Option.bind_eq_some_iff]
  exact Prod.exists

theorem withoutKept_eq_some_iff {p : ReadM α} {r s : Reading} {a : α} :
    withoutKept p r = some (a, s) ↔ ∃ m, p r = some (a, m) ∧ s = { m with kept := r.kept } := by
  rw [withoutKept]
  cases p r with
  | none => simp
  | some read => simp [Prod.ext_iff, eq_comm, and_assoc]

theorem rest_of_expect {cs : List Char} {r s : Reading} {u : Unit} (h : expect cs r = some (u, s)) :
    r.rest = cs ++ s.rest := by
  obtain ⟨taken, m, htake, h⟩ := bind_eq_some_iff.mp h
  obtain ⟨ds, m', hrest, htake⟩ := bind_eq_some_iff.mp htake
  obtain ⟨rfl, rfl⟩ := Prod.mk.inj (Option.some.inj hrest)
  by_cases hprefix : cs.isPrefixOf r.rest = true
  · obtain ⟨after, hafter⟩ := List.isPrefixOf_iff_prefix.mp hprefix
    rw [if_pos hprefix] at htake
    obtain ⟨rfl, rfl⟩ := Prod.mk.inj (Option.some.inj htake)
    obtain ⟨-, rfl⟩ := Prod.mk.inj (Option.some.inj h)
    change r.rest = cs ++ r.rest.drop cs.length
    rw [← hafter, List.drop_left]
  · rw [if_neg hprefix] at htake
    obtain ⟨rfl, rfl⟩ := Prod.mk.inj (Option.some.inj htake)
    cases h

/-! ## Taking -/

/-- Of a text, `p` reads `a` and leaves `rest`. -/
def Takes (p : ReadM α) (cs : List Char) (a : α) (rest : List Char) : Prop :=
  ∀ kept, ∃ kept', p ⟨cs, kept⟩ = some (a, ⟨rest, kept'⟩)

/-- On a text, `p` fails. -/
def Refuses (p : ReadM α) (cs : List Char) : Prop := ∀ kept, p ⟨cs, kept⟩ = none

section Takes

variable {p : ReadM α} {f : α → ReadM β} {a : α} {b : β} {cs ds mid left : List Char}

theorem takes_pure (a : α) (cs : List Char) : Takes (pure a) cs a cs := fun kept => ⟨kept, rfl⟩

theorem Takes.bind (hp : Takes p cs a mid) (hf : Takes (f a) mid b left) :
    Takes (p >>= f) cs b left := by
  intro kept
  obtain ⟨kept', hp⟩ := hp kept
  obtain ⟨kept'', hf⟩ := hf kept'
  exact ⟨kept'', bind_eq_some_iff.mpr ⟨a, _, hp, hf⟩⟩

theorem refuses_failure (cs : List Char) : Refuses (failure : ReadM α) cs := fun _ => rfl

theorem Refuses.bind (hp : Refuses p cs) : Refuses (p >>= f) cs := by
  intro kept
  change (p ⟨cs, kept⟩).bind _ = none
  rw [hp kept]
  rfl

theorem Takes.bind_refuses (hp : Takes p cs a mid) (hf : Refuses (f a) mid) :
    Refuses (p >>= f) cs := by
  intro kept
  obtain ⟨kept', hp⟩ := hp kept
  change (p ⟨cs, kept⟩).bind _ = none
  rw [hp]
  exact hf kept'

theorem takes_lift {o : Option α} (h : o = some a) (cs : List Char) :
    Takes (liftM o : ReadM α) cs a cs := by
  subst h
  exact fun kept => ⟨kept, rfl⟩

theorem refuses_lift {o : Option α} (h : o = none) (cs : List Char) :
    Refuses (liftM o : ReadM α) cs := by
  subst h
  exact fun _ => rfl

theorem takes_rest (cs : List Char) : Takes rest cs cs cs := fun kept => ⟨kept, rfl⟩

theorem takes_keep (ds cs : List Char) : Takes (keep ds) cs () cs :=
  fun kept => ⟨ds.reverse ++ kept, rfl⟩

theorem takes_advance (n : Nat) (cs : List Char) : Takes (advance n) cs () (cs.drop n) :=
  fun kept => ⟨(cs.take n).reverse ++ kept, rfl⟩

theorem takes_advance_append (ds cs : List Char) : Takes (advance ds.length) (ds ++ cs) () cs := by
  have h := takes_advance ds.length (ds ++ cs)
  rwa [List.drop_left] at h

theorem takes_takeIf (ds cs : List Char) : Takes (takeIf ds) (ds ++ cs) true cs := by
  refine (takes_rest _).bind ?_
  rw [if_pos (by simp)]
  exact (takes_advance_append ds cs).bind (takes_pure true cs)

theorem takes_takeIf_false (h : ¬ ds <+: cs) : Takes (takeIf ds) cs false cs := by
  refine (takes_rest _).bind ?_
  rw [if_neg (by simpa using h)]
  exact takes_pure false cs

theorem takes_expect (ds cs : List Char) : Takes (expect ds) (ds ++ cs) () cs :=
  (takes_takeIf ds cs).bind (takes_pure () cs)

theorem refuses_expect (h : ¬ ds <+: cs) : Refuses (expect ds) cs :=
  (takes_takeIf_false h).bind_refuses (refuses_failure cs)

theorem Takes.attempt (hp : Takes p cs a left) : Takes (attempt p) cs (some a) left := by
  intro kept
  obtain ⟨kept', hp⟩ := hp kept
  exact ⟨kept', by rw [ReadM.attempt, hp]⟩

theorem Refuses.attempt (hp : Refuses p cs) : Takes (attempt p) cs none cs :=
  fun kept => ⟨kept, by rw [ReadM.attempt, hp kept]⟩

theorem Takes.withoutKept (hp : Takes p cs a left) : Takes (withoutKept p) cs a left := by
  intro kept
  obtain ⟨kept', hp⟩ := hp kept
  exact ⟨kept, by rw [ReadM.withoutKept, hp]⟩

/-! ## Blanks and comments -/

theorem takes_gap {lines : Bool} {n : Nat} (h : gapLength lines cs.length cs = n) :
    Takes (gap lines) cs () (cs.drop n) := by
  subst h
  exact (takes_rest cs).bind (takes_advance _ cs)

end Takes

/-! ## Yielding -/

/-- Wherever in a text `p` begins to read, `P` holds of what it reads, and what it leaves is an end of
the text. -/
def Yields (text : List Char) (p : ReadM α) (P : α → Prop) : Prop :=
  ∀ r a s, r.rest <:+ text → p r = some (a, s) → P a ∧ s.rest <:+ text

section Yields

variable {text : List Char} {p : ReadM α} {f : α → ReadM β} {P : α → Prop} {Q : β → Prop}

theorem yields_pure {a : α} (h : P a) : Yields text (pure a) P := by
  rintro r b s hr hp
  obtain ⟨rfl, rfl⟩ := Prod.mk.inj (Option.some.inj hp)
  exact ⟨h, hr⟩

theorem yields_failure : Yields text (failure : ReadM α) P := fun _ _ _ _ h => nomatch h

theorem Yields.bind (hp : Yields text p P) (hf : ∀ a, P a → Yields text (f a) Q) :
    Yields text (p >>= f) Q := by
  intro r b s hr h
  obtain ⟨a, m, ha, hb⟩ := bind_eq_some_iff.mp h
  obtain ⟨hP, hm⟩ := hp r a m hr ha
  exact hf a hP m b s hm hb

theorem yields_ite {c : Prop} [Decidable c] {q : ReadM α} (hp : c → Yields text p P)
    (hq : ¬ c → Yields text q P) : Yields text (if c then p else q) P := by
  by_cases hc : c
  · rw [if_pos hc]
    exact hp hc
  · rw [if_neg hc]
    exact hq hc

theorem yields_lift {o : Option α} (h : ∀ a, o = some a → P a) : Yields text (liftM o : ReadM α) P := by
  cases o with
  | none => exact fun _ _ _ _ h => nomatch h
  | some a => exact yields_pure (h a rfl)

theorem yields_rest : Yields text rest (· <:+ text) := by
  rintro r cs s hr h
  obtain ⟨rfl, rfl⟩ := Prod.mk.inj (Option.some.inj h)
  exact ⟨hr, hr⟩

theorem yields_keep (cs : List Char) : Yields text (keep cs) fun _ => True := by
  rintro r u s hr h
  obtain ⟨-, rfl⟩ := Prod.mk.inj (Option.some.inj h)
  exact ⟨trivial, hr⟩

theorem yields_advance (n : Nat) : Yields text (advance n) fun _ => True := by
  rintro r u s hr h
  obtain ⟨-, rfl⟩ := Prod.mk.inj (Option.some.inj h)
  exact ⟨trivial, (List.drop_suffix n r.rest).trans hr⟩

theorem yields_takeIf (cs : List Char) : Yields text (takeIf cs) fun _ => True :=
  yields_rest.bind fun _ _ => yields_ite
    (fun _ => (yields_advance cs.length).bind fun _ _ => yields_pure trivial)
    (fun _ => yields_pure trivial)

theorem yields_expect (cs : List Char) : Yields text (expect cs) fun _ => True :=
  (yields_takeIf cs).bind fun _ _ => yields_ite (fun _ => yields_pure trivial) (fun _ => yields_failure)

theorem Yields.attempt (hp : Yields text p P) : Yields text (attempt p) fun o => ∀ a ∈ o, P a := by
  intro r o s hr h
  rw [ReadM.attempt] at h
  cases hread : p r with
  | none =>
    rw [hread] at h
    obtain ⟨rfl, rfl⟩ := Prod.mk.inj (Option.some.inj h)
    exact ⟨fun b hb => (nomatch hb), hr⟩
  | some read =>
    rw [hread] at h
    obtain ⟨rfl, rfl⟩ := Prod.mk.inj (Option.some.inj h)
    obtain ⟨hP, hs⟩ := hp r _ _ hr hread
    exact ⟨fun b hb => Option.some.inj hb ▸ hP, hs⟩

theorem Yields.withoutKept (hp : Yields text p P) : Yields text (withoutKept p) P := by
  intro r a s hr h
  obtain ⟨m, hread, rfl⟩ := withoutKept_eq_some_iff.mp h
  exact hp r a m hr hread

theorem yields_gap (lines : Bool) : Yields text (gap lines) fun _ => True :=
  yields_rest.bind fun _ _ => yields_advance _

theorem Yields.between (lines : Bool) (hp : Yields text p P) : Yields text (between lines p) P :=
  (yields_gap lines).bind fun _ _ => hp.bind fun _ ha => (yields_gap lines).bind fun _ _ => yields_pure ha

theorem yields_lineEnd : Yields text lineEnd fun _ => True := by
  refine (yields_gap false).bind fun _ _ => yields_rest.bind fun _ _ => ?_
  split
  case' h_1 => refine (yields_advance _).bind fun _ _ => ?_
  -- The line ends next, whether or not there was a comment.
  all_goals
    refine yields_rest.bind fun cs _ => ?_
    split
    · exact yields_pure trivial
    · exact yields_advance 1
    · exact yields_advance 2
    · exact yields_failure

end Yields

end RouteFleet.Hcl.ReadM
