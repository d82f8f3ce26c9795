import RouteFleet.Hcl.Body
import RouteFleet.Proofs.Hcl.Reading

/-! # Texts of expressions

Whatever is read of a text as an expression has its texts from there: if all that can be read between
quotes, or on several lines between two marks, has a property, then so has every text in every expression
(`texts`). This is one induction on the fuel over all readers that call each other, with a lemma for the step
of each of them (`Texts.succ`).
-/

namespace RouteFleet.Hcl

open ReadM

/-! ## Texts of an expression -/

/-- A text that an expression says, itself or by an item or a value in it. -/
inductive Expression.Has : Expression → String → Prop
  | string (s : String) : Has (.string s) s
  | template (s : String) : Has (.template s) s
  | heredoc (flush : Bool) (mark s : String) : Has (.heredoc flush mark s) s
  | item {items : List Expression} {e : Expression} {s : String} (h : e ∈ items) (hs : Has e s) :
    Has (.array items) s
  | value {entries : List (Expression × Expression)} {entry : Expression × Expression} {s : String}
    (h : entry ∈ entries) (hs : Has entry.2 s) : Has (.object entries) s

/-- Whether all texts that an expression says have a property. -/
def Expression.All (P : String → Prop) (e : Expression) : Prop := ∀ s, e.Has s → P s

namespace Expression

variable {P : String → Prop}

theorem all_string {s : String} (h : P s) : All P (.string s) := by
  rintro _ ⟨⟩
  exact h

theorem all_heredoc {s : String} (flush : Bool) (mark : String) (h : P s) :
    All P (.heredoc flush mark s) := by
  rintro _ ⟨⟩
  exact h

theorem all_array_iff {items : List Expression} : All P (.array items) ↔ ∀ e ∈ items, All P e := by
  constructor
  · exact fun h e he s hs => h s (.item he hs)
  · rintro h s (_ | _ | _ | ⟨he, hs⟩ | _)
    exact h _ he s hs

theorem all_object_iff {entries : List (Expression × Expression)} :
    All P (.object entries) ↔ ∀ entry ∈ entries, All P entry.2 := by
  constructor
  · exact fun h e he s hs => h s (.value he hs)
  · rintro h s (_ | _ | _ | _ | ⟨he, hs⟩)
    exact h _ he s hs

theorem all_term (s : String) : All P (.term s) := fun _ h => nomatch h

theorem all_integer (n : Int) : All P (.integer n) := fun _ h => nomatch h

theorem all_real (r : Binary64) : All P (.real r) := fun _ h => nomatch h

theorem all_ofName (name : String) : All P (ofName name) := by
  unfold ofName
  split
  · exact fun _ h => nomatch h
  split
  · exact fun _ h => nomatch h
  split
  · exact fun _ h => nomatch h
  · exact all_term name

theorem all_ofBinary {r : Binary64} {e : Expression} (h : ofBinary r = some e) : All P e := by
  unfold ofBinary at h
  split at h
  · split at h
    · split at h
      · cases h
        exact all_integer _
      · cases h
        exact all_real _
    · cases h
      exact all_real _
  · cases h

theorem all_ofNumeral {cs : List Char} {e : Expression} (h : ofNumeral? cs = some e) : All P e := by
  rw [ofNumeral?] at h
  split at h
  · obtain ⟨n, -, hn⟩ := Option.bind_eq_some_iff.mp h
    split at hn
    · cases hn
      exact all_integer _
    · cases hn
  · obtain ⟨r, -, hr⟩ := Option.bind_eq_some_iff.mp h
    exact all_ofBinary hr

theorem all_negate {e e' : Expression} (h : negate? e = some e') : All P e' := by
  unfold negate? at h
  split at h
  · split at h
    · cases h
      exact all_integer _
    · obtain ⟨r, -, rfl⟩ := Option.map_eq_some_iff.mp h
      exact all_real r
  · cases h
    exact all_real _
  · cases h

end Expression

/-! ## Words -/

section Words

variable {text : List Char}

theorem yields_name : Yields text name fun _ => True := by
  refine yields_rest.bind fun cs _ => ?_
  split
  · exact yields_failure
  · exact (yields_advance _).bind fun _ _ => yields_pure trivial

theorem yields_word (w : String) : Yields text (word w) fun _ => True :=
  yields_name.bind fun _ _ => yields_ite (fun _ => yields_pure trivial) (fun _ => yields_failure)

theorem yields_number (P : String → Prop) : Yields text number (Expression.All P) :=
  yields_rest.bind fun _ _ => (yields_lift fun _ he => Expression.all_ofNumeral he).bind fun _ he =>
    (yields_advance _).bind fun _ _ => yields_pure he

theorem yields_inner (lines : Bool) (p : Place) : Yields text (p.inner lines) fun _ => True := by
  unfold Place.inner
  split
  · exact yields_failure
  · exact yields_pure trivial

theorem yields_scopedName (fuel : Nat) (scope : String) :
    Yields text (scopedName fuel scope) fun _ => True := by
  induction fuel generalizing scope with
  | zero => exact yields_failure
  | succ fuel ih =>
    rw [scopedName]
    refine Yields.bind (Yields.attempt ((yields_gap false).bind fun _ _ => (yields_expect _).bind fun _ _ =>
      (yields_gap false).bind fun _ _ => yields_name)) fun more _ => ?_
    cases more with
    | none => exact yields_pure trivial
    | some n => exact ih _

end Words

/-! ## Expressions -/

section Expressions

variable {text : List Char} {P : String → Prop}

/-- What the readers of expressions yield with some fuel. -/
structure Texts (text : List Char) (P : String → Prop) (fuel : Nat) : Prop where
  expression : ∀ p, Yields text (expression p fuel) (Expression.All P)
  operation : ∀ p, Yields text (operation p fuel) (Expression.All P)
  operand : ∀ p, Yields text (operand p fuel) (Expression.All P)
  signed : ∀ sign p, Yields text (signed sign p fuel) (Expression.All P)
  accesses : ∀ p e, e.All P → Yields text (accesses p fuel e) (Expression.All P)
  access : ∀ p, Yields text (access p fuel) fun _ => True
  primary : ∀ p, Yields text (primary p fuel) (Expression.All P)
  named : ∀ p, Yields text (named p fuel) (Expression.All P)
  arguments : ∀ p, Yields text (arguments p fuel) fun _ => True
  items : ∀ close p, Yields text (items close p fuel) fun es => ∀ e ∈ es, Expression.All P e
  entries : ∀ p before, (∀ entry ∈ before, Expression.All P entry.2) →
    Yields text (entries p fuel before) fun es => ∀ entry ∈ es, Expression.All P entry.2
  generator : ∀ p, Yields text (generator p fuel) fun _ => True
  condition : ∀ p, Yields text (condition p fuel) fun _ => True
  listComprehension : ∀ p, Yields text (listComprehension p fuel) (Expression.All P)
  objectComprehension : ∀ p, Yields text (objectComprehension p fuel) (Expression.All P)

theorem Texts.zero : Texts text P 0 := by
  constructor <;> intros <;> exact yields_failure

/-- Where a step is left out or not, what follows it yields the same. -/
theorem yields_join {c : Prop} [Decidable c] {α : Type} {q : ReadM Unit} {f : Unit → ReadM α}
    {Q : α → Prop} (hq : Yields text q fun _ => True) (hf : Yields text (f ()) Q) :
    Yields text (if c then q >>= f else f ()) Q :=
  yields_ite (fun _ => hq.bind fun _ _ => hf) (fun _ => hf)

/-! ### One step of each reader -/

namespace Texts

variable {fuel : Nat} (h : Texts text P fuel)

include h

/-- An expression one level deeper is read with whatever follows it. -/
theorem inner {α : Type} {f : Expression → ReadM α} {Q : α → Prop} (lines : Bool) (p : Place)
    (hf : ∀ e, e.All P → Yields text (f e) Q) :
    Yields text (p.inner lines >>= fun inner => Hcl.expression inner fuel >>= f) Q :=
  (yields_inner lines p).bind fun place _ => (h.expression place).bind hf

/-- The same with blanks around the expression. -/
theorem innerBetween {α : Type} {f : Expression → ReadM α} {Q : α → Prop} (lines around : Bool)
    (p : Place) (hf : ∀ e, e.All P → Yields text (f e) Q) : Yields text
      (p.inner lines >>= fun inner => between around (Hcl.expression inner fuel) >>= f) Q :=
  (yields_inner lines p).bind fun place _ => ((h.expression place).between around).bind hf

theorem expression_succ (p : Place) : Yields text (Hcl.expression p (fuel + 1)) (Expression.All P) := by
  rw [Hcl.expression]
  refine (h.operation p).bind fun first hfirst => Yields.bind
    ((yields_gap _).bind fun _ _ => yields_expect _).attempt fun more _ => ?_
  cases more with
  | none => exact yields_pure hfirst
  | some _ =>
    exact (yields_inner _ p).bind fun inner _ => (yields_gap _).bind fun _ _ =>
      (h.expression inner).bind fun _ _ => (yields_gap _).bind fun _ _ =>
      (yields_expect _).bind fun _ _ => (yields_gap _).bind fun _ _ =>
      (h.expression inner).bind fun _ _ => yields_pure (Expression.all_term _)

theorem operation_succ (p : Place) : Yields text (Hcl.operation p (fuel + 1)) (Expression.All P) := by
  rw [Hcl.operation]
  refine (h.operand p).bind fun first hfirst => Yields.bind
    (Yields.attempt ((yields_gap _).bind fun _ _ => yields_rest.bind fun _ _ =>
      Yields.bind (yields_lift fun _ _ => trivial) fun _ _ =>
      (yields_advance _).bind fun _ _ => yields_pure trivial)) fun more _ => ?_
  cases more with
  | none => exact yields_pure hfirst
  | some _ =>
    exact (yields_gap _).bind fun _ _ => (yields_inner _ p).bind fun inner _ =>
      (h.operation inner).bind fun _ _ => yields_pure (Expression.all_term _)

theorem operand_succ (p : Place) : Yields text (Hcl.operand p (fuel + 1)) (Expression.All P) := by
  rw [Hcl.operand]
  refine yields_rest.bind fun cs _ => ?_
  split
  · refine Yields.bind ((yields_advance 1).bind fun _ _ => (yields_gap _).bind fun _ _ =>
      yields_number P).attempt fun number _ => ?_
    cases number with
    | none => exact h.signed "-" p
    | some e => exact Yields.bind (yields_lift fun _ he => Expression.all_negate he) fun _ he =>
        h.accesses p _ he
  · exact h.signed "!" p
  · exact (h.primary p).bind fun e he => h.accesses p e he

theorem signed_succ (sign : String) (p : Place) :
    Yields text (Hcl.signed sign p (fuel + 1)) (Expression.All P) := by
  rw [Hcl.signed]
  exact (yields_advance 1).bind fun _ _ => (yields_gap _).bind fun _ _ =>
    (yields_inner _ p).bind fun inner _ => (h.operand inner).bind fun _ _ =>
    yields_pure (Expression.all_term _)

theorem accesses_succ (p : Place) {e : Expression} (he : e.All P) :
    Yields text (Hcl.accesses p (fuel + 1) e) (Expression.All P) := by
  rw [Hcl.accesses]
  refine Yields.bind ((yields_gap _).bind fun _ _ => h.access p).attempt fun more _ => ?_
  cases more with
  | none => exact yields_pure he
  | some _ => exact h.accesses p _ (Expression.all_term _)

theorem access_succ (p : Place) : Yields text (Hcl.access p (fuel + 1)) fun _ => True := by
  rw [Hcl.access]
  refine (yields_takeIf _).bind fun _ _ => yields_ite (fun _ => ?_) (fun _ => ?_)
  · -- An attribute, or the number of an element after a full stop.
    refine (yields_gap _).bind fun _ _ => (yields_takeIf _).bind fun _ _ => yields_ite
      (fun _ => yields_pure trivial) (fun _ => yields_rest.bind fun cs _ => ?_)
    split
    · exact yields_name.bind fun _ _ => yields_pure trivial
    · exact yields_join yields_failure ((yields_advance _).bind fun _ _ => yields_pure trivial)
  · -- An element in brackets.
    refine (yields_expect _).bind fun _ _ => (yields_gap _).bind fun _ _ =>
      (yields_takeIf _).bind fun _ _ => yields_ite (fun _ => ?_) (fun _ => ?_)
    · exact (yields_gap _).bind fun _ _ => (yields_expect _).bind fun _ _ => yields_pure trivial
    · exact h.inner _ p fun _ _ => (yields_gap _).bind fun _ _ =>
        (yields_expect _).bind fun _ _ => yields_pure trivial

/-- What begins with neither a quote nor the sign of a text of several lines, and those two. -/
theorem primary_succ (p : Place) (hquoted : Yields text (quoted p fuel) (Expression.All P))
    (hheredoc : Yields text (heredoc p fuel) (Expression.All P)) :
    Yields text (Hcl.primary p (fuel + 1)) (Expression.All P) := by
  rw [Hcl.primary]
  refine yields_rest.bind fun cs _ => ?_
  split
  · exact hquoted
  · exact hheredoc
  · refine Yields.bind (Yields.withoutKept ((yields_advance 1).bind fun _ _ =>
      h.innerBetween _ true p fun _ _ => (yields_expect _).bind fun _ _ =>
      yields_pure (Expression.all_term _))) fun e (he : e.All P) => ?_
    exact (yields_keep _).bind fun _ _ => yields_pure he
  · refine (yields_advance 1).bind fun _ _ => (yields_gap _).bind fun _ _ =>
      (yields_word "for").attempt.bind fun isFor _ => ?_
    cases isFor with
    | none => exact (h.items _ p).bind fun _ hes => yields_pure (Expression.all_array_iff.mpr hes)
    | some _ => exact h.listComprehension p
  · refine (yields_advance 1).bind fun _ _ => (yields_gap _).bind fun _ _ =>
      (yields_word "for").attempt.bind fun isFor _ => ?_
    cases isFor with
    | none => exact (h.entries p [] (fun _ he => nomatch he)).bind fun _ hes =>
        yields_pure (Expression.all_object_iff.mpr hes)
    | some _ => exact h.objectComprehension p
  · exact yields_ite (fun _ => yields_number P) (fun _ => h.named p)
  · exact yields_failure

theorem named_succ (p : Place) : Yields text (Hcl.named p (fuel + 1)) (Expression.All P) := by
  rw [Hcl.named]
  refine yields_name.bind fun first _ => (yields_scopedName fuel first).bind fun full _ =>
    Yields.bind ((yields_gap _).bind fun _ _ => yields_expect _).attempt fun isCall _ => ?_
  cases isCall with
  | none => exact yields_ite (fun _ => yields_pure (Expression.all_ofName _)) (fun _ => yields_failure)
  | some _ => exact (h.arguments p).bind fun _ _ => yields_pure (Expression.all_term _)

theorem arguments_succ (p : Place) : Yields text (Hcl.arguments p (fuel + 1)) fun _ => True := by
  rw [Hcl.arguments]
  refine (yields_gap _).bind fun _ _ => (yields_takeIf _).bind fun _ _ => yields_ite
    (fun _ => yields_pure trivial) (fun _ => h.inner _ p fun _ _ => (yields_gap _).bind fun _ _ =>
    (yields_takeIf _).bind fun _ _ => yields_ite (fun _ => ?_) (fun _ => ?_))
  · exact (yields_gap _).bind fun _ _ => (yields_expect _).bind fun _ _ => yields_pure trivial
  · exact (yields_takeIf _).bind fun _ _ => yields_ite
      (fun _ => (h.arguments p).bind fun _ _ => yields_pure trivial)
      (fun _ => (yields_expect _).bind fun _ _ => yields_pure trivial)

theorem items_succ (close : List Char) (p : Place) :
    Yields text (Hcl.items close p (fuel + 1)) fun es => ∀ e ∈ es, Expression.All P e := by
  rw [Hcl.items]
  refine (yields_gap _).bind fun _ _ => (yields_takeIf _).bind fun _ _ => yields_ite
    (fun _ => yields_pure fun _ he => nomatch he) (fun _ => h.inner _ p fun e he =>
    (yields_gap _).bind fun _ _ => (yields_takeIf _).bind fun _ _ => yields_ite
    (fun _ => ?_) (fun _ => ?_))
  · exact (h.items close p).bind fun es hes => yields_pure (List.forall_mem_cons.mpr ⟨he, hes⟩)
  · exact (yields_expect _).bind fun _ _ => yields_pure (List.forall_mem_singleton.mpr he)

theorem entries_succ (p : Place) {before : List (Expression × Expression)}
    (hbefore : ∀ entry ∈ before, Expression.All P entry.2) :
    Yields text (Hcl.entries p (fuel + 1) before) fun es =>
      ∀ entry ∈ es, Expression.All P entry.2 := by
  rw [Hcl.entries]
  refine (yields_gap _).bind fun _ _ => (yields_takeIf _).bind fun _ _ => yields_ite
    (fun _ => yields_pure fun _ he => hbefore _ (List.mem_reverse.mp he))
    (fun _ => (yields_inner _ p).bind fun inner _ => (h.expression inner).bind fun key _ =>
      yields_join yields_failure ((yields_gap _).bind fun _ _ => (yields_takeIf _).bind fun _ _ =>
      yields_join (yields_expect _) (((h.expression inner).between false).bind fun value hvalue =>
      (yields_takeIf _).bind fun _ _ => ?_)))
  have hmore := h.entries p ((key, value) :: before) (List.forall_mem_cons.mpr ⟨hvalue, hbefore⟩)
  exact yields_ite (fun _ => yields_rest.bind fun _ _ => yields_join yields_lineEnd hmore)
    (fun _ => hmore)

theorem generator_succ (p : Place) : Yields text (Hcl.generator p (fuel + 1)) fun _ => True := by
  rw [Hcl.generator]
  refine (yields_name.between true).bind fun first _ => (yields_takeIf _).bind fun _ _ => ?_
  have hrest : ∀ names : String, Yields text (do
      word "in"
      let collection ← between true (Hcl.expression (← p.inner false) fuel)
      expect [':']
      return names ++ " in " ++ collection.text) fun _ => True := fun _ =>
    (yields_word _).bind fun _ _ => h.innerBetween _ true p fun _ _ =>
      (yields_expect _).bind fun _ _ => yields_pure trivial
  exact yields_ite (fun _ => (yields_name.between true).bind fun _ _ => hrest _) (fun _ => hrest _)

theorem condition_succ (p : Place) : Yields text (Hcl.condition p (fuel + 1)) fun _ => True := by
  rw [Hcl.condition]
  refine (yields_word "if").attempt.bind fun test _ => ?_
  cases test with
  | none => exact yields_pure trivial
  | some _ => exact h.innerBetween _ true p fun _ _ => yields_pure trivial

theorem listComprehension_succ (p : Place) :
    Yields text (Hcl.listComprehension p (fuel + 1)) (Expression.All P) := by
  rw [Hcl.listComprehension]
  exact (h.generator p).bind fun _ _ => h.innerBetween _ true p fun _ _ =>
    (h.condition p).bind fun _ _ => (yields_expect _).bind fun _ _ =>
    yields_pure (Expression.all_term _)

theorem objectComprehension_succ (p : Place) :
    Yields text (Hcl.objectComprehension p (fuel + 1)) (Expression.All P) := by
  rw [Hcl.objectComprehension]
  exact (h.generator p).bind fun _ _ => (yields_inner _ p).bind fun inner _ =>
    ((h.expression inner).between true).bind fun _ _ => (yields_expect _).bind fun _ _ =>
    ((h.expression inner).between true).bind fun _ _ => (yields_takeIf _).bind fun _ _ =>
    (yields_gap _).bind fun _ _ => (h.condition p).bind fun _ _ => (yields_expect _).bind fun _ _ =>
    yields_pure (Expression.all_term _)

/-- One step of all readers of expressions, for which nothing but what stands between quotes or marks
brings texts. -/
theorem succ (hquoted : ∀ p, Yields text (quoted p fuel) (Expression.All P))
    (hheredoc : ∀ p, Yields text (heredoc p fuel) (Expression.All P)) : Texts text P (fuel + 1) where
  expression := h.expression_succ
  operation := h.operation_succ
  operand := h.operand_succ
  signed := h.signed_succ
  accesses p _ he := h.accesses_succ p he
  access := h.access_succ
  primary p := h.primary_succ p (hquoted p) (hheredoc p)
  named := h.named_succ
  arguments := h.arguments_succ
  items := h.items_succ
  entries p _ hbefore := h.entries_succ p hbefore
  generator := h.generator_succ
  condition := h.condition_succ
  listComprehension := h.listComprehension_succ
  objectComprehension := h.objectComprehension_succ

end Texts

theorem texts (hquoted : ∀ p fuel, Yields text (quoted p fuel) (Expression.All P))
    (hheredoc : ∀ p fuel, Yields text (heredoc p fuel) (Expression.All P)) (fuel : Nat) :
    Texts text P fuel := by
  induction fuel with
  | zero => exact Texts.zero
  | succ fuel ih => exact ih.succ (hquoted · fuel) (hheredoc · fuel)

end Expressions

end RouteFleet.Hcl
