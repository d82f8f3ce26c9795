import RouteFleet.Hcl.Object
import RouteFleet.Proofs.Hcl.Reader

/-! # Texts of bodies

A body has its texts from the text it is read of (`yields_bodies`), and the object that says what it says has
no others (`Body.all_toEntries`).
-/

namespace RouteFleet.Hcl

open ReadM

/-- A text that a part of a body says, as its value or by a part in it. -/
inductive Item.Has : Item → String → Prop
  | attribute {name s : String} {e : Expression} (h : e.Has s) : Has (.attribute name e) s
  | block {name s : String} {labels : List String} {body : List Item} {item : Item} (h : item ∈ body)
    (hs : Has item s) : Has (.block name labels body) s

/-- Whether all texts that a part of a body says have a property. -/
def Item.All (P : String → Prop) (item : Item) : Prop := ∀ s, item.Has s → P s

variable {P : String → Prop}

theorem Item.all_attribute_iff {name : String} {e : Expression} :
    All P (.attribute name e) ↔ e.All P := by
  constructor
  · exact fun h s hs => h s (.attribute hs)
  · rintro h s (hs | _)
    exact h s hs

theorem Item.all_block_iff {name : String} {labels : List String} {body : List Item} :
    All P (.block name labels body) ↔ ∀ item ∈ body, All P item := by
  constructor
  · exact fun h item hitem s hs => h s (.block hitem hs)
  · rintro h s (_ | ⟨hitem, hs⟩)
    exact h _ hitem s hs

/-! ## Reading -/

section Reading

variable {text : List Char} (hquoted : ∀ p fuel, Yields text (quoted p fuel) (Expression.All P))
  (hheredoc : ∀ p fuel, Yields text (heredoc p fuel) (Expression.All P))

omit hquoted hheredoc in
theorem yields_setMark : Yields text setMark fun _ => True :=
  (yields_gap _).bind fun _ _ => yields_takeIf _

include hquoted

theorem yields_plainText : Yields text plainText fun _ => True := by
  refine yields_rest.bind fun cs _ => (hquoted _ _).bind fun e _ => ?_
  split
  · exact yields_pure trivial
  · exact yields_failure

theorem yields_labels (fuel : Nat) : Yields text (labels fuel) fun _ => True := by
  induction fuel with
  | zero => exact yields_failure
  | succ fuel ih =>
    rw [labels]
    refine (yields_gap _).bind fun _ _ => yields_rest.bind fun cs _ => ?_
    split
    · exact (yields_advance 1).bind fun _ _ => yields_pure trivial
    · exact (yields_plainText hquoted).bind fun _ _ => ih.bind fun _ _ => yields_pure trivial
    · exact yields_name.bind fun _ _ => ih.bind fun _ _ => yields_pure trivial

include hheredoc

theorem yields_value : Yields text value (Expression.All P) :=
  (yields_gap _).bind fun _ _ => yields_rest.bind fun _ _ =>
    ((texts hquoted hheredoc _).expression _).bind fun _ he => (yields_gap _).bind fun _ _ =>
    yields_pure he

theorem yields_bodies (fuel : Nat) :
    (∀ inBlock, Yields text (body inBlock fuel) fun items => ∀ item ∈ items, Item.All P item) ∧
      Yields text (blockBody fuel) fun items => ∀ item ∈ items, Item.All P item := by
  induction fuel with
  | zero => exact ⟨fun _ => yields_failure, yields_failure⟩
  | succ fuel ih =>
    constructor
    · intro inBlock
      rw [body]
      refine (yields_gap _).bind fun _ _ => yields_rest.bind fun cs _ => ?_
      split
      · exact yields_ite (fun _ => yields_failure) (fun _ => yields_pure fun _ h => nomatch h)
      · exact yields_join yields_failure
          ((yields_advance 1).bind fun _ _ => yields_pure fun _ h => nomatch h)
      · refine yields_name.bind fun name _ => yields_setMark.bind fun _ _ =>
          yields_ite (fun _ => ?_) (fun _ => ?_)
        · refine (yields_value hquoted hheredoc).bind fun e he =>
            Yields.bind (yields_pure rfl) fun item (hitem : .attribute name e = item) => ?_
          subst hitem
          exact yields_lineEnd.bind fun _ _ => (ih.1 inBlock).bind fun _ hitems =>
            yields_join yields_failure
              (yields_pure (List.forall_mem_cons.mpr ⟨Item.all_attribute_iff.mpr he, hitems⟩))
        · refine (yields_labels hquoted _).bind fun labels _ => ih.2.bind fun more hmore =>
            Yields.bind (yields_pure rfl) fun item (hitem : .block name labels more = item) => ?_
          subst hitem
          exact yields_lineEnd.bind fun _ _ => (ih.1 inBlock).bind fun _ hitems =>
            yields_pure (List.forall_mem_cons.mpr ⟨Item.all_block_iff.mpr hmore, hitems⟩)
    · rw [blockBody]
      refine yields_lineEnd.attempt.bind fun onLines _ => ?_
      cases onLines with
      | some _ => exact ih.1 true
      | none =>
        exact (yields_gap _).bind fun _ _ => (yields_takeIf _).bind fun _ _ => yields_ite
          (fun _ => yields_pure fun _ h => nomatch h)
          (fun _ => yields_name.bind fun _ _ => yields_setMark.bind fun _ _ =>
            yields_join yields_failure ((yields_value hquoted hheredoc).bind fun _ he =>
            (yields_expect _).bind fun _ _ =>
            yields_pure (List.forall_mem_singleton.mpr (Item.all_attribute_iff.mpr he))))

end Reading

theorem all_of_read? {text : String} {items : Body}
    (hquoted : ∀ p fuel, Yields text.toList (quoted p fuel) (Expression.All P))
    (hheredoc : ∀ p fuel, Yields text.toList (heredoc p fuel) (Expression.All P))
    (h : read? text = some items) : ∀ item ∈ items, Item.All P item := by
  obtain ⟨⟨items, left⟩, hbody, rfl⟩ := Option.map_eq_some_iff.mp h
  exact ((yields_bodies hquoted hheredoc _).1 false _ _ _ (List.suffix_refl _) hbody).1

/-! ## Objects -/

namespace Meaning

/-- Whether all texts of what a name stands for have a property. -/
def All (P : String → Prop) (m : Meaning) : Prop := m.toExpression.All P

theorem mem_toEntries {entries : List (String × Meaning)} {entry : Expression × Expression} :
    entry ∈ toEntries entries ↔ ∃ e ∈ entries, entry = (.string e.1, e.2.toExpression) := by
  induction entries with
  | nil => simp [toEntries]
  | cons e entries ih => simp [toEntries, ih]

theorem all_labelled_iff {entries : List (String × Meaning)} :
    All P (.labelled entries) ↔ ∀ e ∈ entries, All P e.2 := by
  rw [All, toExpression, Expression.all_object_iff]
  constructor
  · exact fun h e he => h _ (mem_toEntries.mpr ⟨e, he, rfl⟩)
  · intro h entry hentry
    obtain ⟨e, he, rfl⟩ := mem_toEntries.mp hentry
    exact h e he

theorem all_blocks_iff {bodies : List Expression} : All P (.blocks bodies) ↔ ∀ b ∈ bodies, b.All P := by
  match bodies with
  | [] => exact Expression.all_array_iff
  | [b] =>
    rw [List.forall_mem_singleton]
    exact Iff.rfl
  | _ :: _ :: _ => exact Expression.all_array_iff

end Meaning

theorem all_setMeaning {name : String} {f : Option Meaning → Meaning} {entries : List (String × Meaning)}
    (hf : ∀ old, (∀ m ∈ old, Meaning.All P m) → (f old).All P) (h : ∀ e ∈ entries, e.2.All P) :
    ∀ e ∈ setMeaning name f entries, e.2.All P := by
  induction entries with
  | nil => exact List.forall_mem_singleton.mpr (hf none fun _ hm => nomatch hm)
  | cons e entries ih =>
    obtain ⟨he, hentries⟩ := List.forall_mem_cons.mp h
    rw [setMeaning]
    split
    · refine List.forall_mem_cons.mpr ⟨hf _ fun m hm => ?_, hentries⟩
      exact Option.some.inj hm ▸ he
    · exact List.forall_mem_cons.mpr ⟨he, ih hentries⟩

theorem Meaning.all_addBlock {body : Expression} (hbody : body.All P) (labels : List String)
    (old : Option Meaning) (hold : ∀ m ∈ old, m.All P) : (addBlock body labels old).All P := by
  induction labels generalizing old with
  | nil =>
    match old with
    | some (.blocks bodies) =>
      have hbodies := all_blocks_iff.mp (hold _ rfl)
      refine all_blocks_iff.mpr fun b hb => ?_
      rcases List.mem_append.mp hb with hb | hb
      · exact hbodies b hb
      · exact List.mem_singleton.mp hb ▸ hbody
    | none | some (.value _) | some (.labelled _) =>
      exact all_blocks_iff.mpr (List.forall_mem_singleton.mpr hbody)
  | cons label labels ih =>
    match old with
    | some (.labelled entries) =>
      exact all_labelled_iff.mpr (all_setMeaning ih (all_labelled_iff.mp (hold _ rfl)))
    | none | some (.value _) | some (.blocks _) =>
      exact all_labelled_iff.mpr (List.forall_mem_singleton.mpr (ih none fun _ hm => nomatch hm))

mutual

theorem Item.all_addTo {entries : List (String × Meaning)} (h : ∀ e ∈ entries, e.2.All P) :
    (item : Item) → item.All P → ∀ e ∈ item.addTo entries, e.2.All P
  | .attribute _ _, hitem => all_setMeaning (fun _ _ => Item.all_attribute_iff.mp hitem) h
  | .block _ labels body, hitem => by
    have hbody := Body.all_meanings (List.forall_mem_nil _) body (Item.all_block_iff.mp hitem)
    exact all_setMeaning (Meaning.all_addBlock (Meaning.all_labelled_iff.mpr hbody) labels) h

theorem Body.all_meanings {entries : List (String × Meaning)} (h : ∀ e ∈ entries, e.2.All P) :
    (body : List Item) → (∀ item ∈ body, item.All P) → ∀ e ∈ Body.meanings body entries, e.2.All P
  | [], _ => h
  | item :: rest, hbody =>
    Body.all_meanings (Item.all_addTo h item (hbody item List.mem_cons_self)) rest
      fun item hitem => hbody item (List.mem_cons_of_mem _ hitem)

end

theorem Body.all_toEntries {body : Body} (h : ∀ item ∈ body, Item.All P item) :
    ∀ entry ∈ body.toEntries, entry.2.All P :=
  Expression.all_object_iff.mp
    (Meaning.all_labelled_iff.mpr (Body.all_meanings (List.forall_mem_nil _) body h))

end RouteFleet.Hcl
