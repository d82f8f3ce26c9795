import Mathlib.Data.List.Forall2
import RouteFleet.Graph.Edit

/-! # Lists and dictionaries in relation

What does not tell related items apart does not tell lists of them apart, nor optional ones, nor
dictionaries that hold them under the same keys. Two such dictionaries still do when their keys are renamed,
also where entries come to have one key (`Dict.Related.renameKeys`).
-/

namespace RouteFleet

/-! ## Lists and optional values -/

section Lists

universe u v w x

variable {α : Type u} {β : Type v} {γ : Type w} {δ : Type x} {R : α → β → Prop} {l : List α} {l' : List β}

/-- A predicate that does not tell related items apart holds of some item of both lists or of none. -/
theorem any_eq_any_of_forall₂ {p : α → Bool} {q : β → Bool} (h : List.Forall₂ R l l')
    (hpq : ∀ a b, R a b → p a = q b) : l.any p = l'.any q := by
  induction h with
  | nil => rfl
  | cons hhead _ ih => rw [List.any_cons, List.any_cons, hpq _ _ hhead, ih]

theorem forall_mem_iff_of_forall₂ {p : α → Prop} {q : β → Prop} (h : List.Forall₂ R l l')
    (hpq : ∀ a b, R a b → (p a ↔ q b)) : (∀ a ∈ l, p a) ↔ ∀ b ∈ l', q b := by
  induction h with
  | nil => exact iff_of_true (List.forall_mem_nil p) (List.forall_mem_nil q)
  | cons hhead _ ih => rw [List.forall_mem_cons, List.forall_mem_cons, hpq _ _ hhead, ih]

theorem flatMap_eq_flatMap_of_forall₂ {f : α → List γ} {f' : β → List γ} (h : List.Forall₂ R l l')
    (hf : ∀ a b, R a b → f a = f' b) : l.flatMap f = l'.flatMap f' := by
  induction h with
  | nil => rfl
  | cons hhead _ ih => rw [List.flatMap_cons, List.flatMap_cons, hf _ _ hhead, ih]

theorem map_eq_map_of_rel {f : α → γ} {f' : β → γ} {a : Option α} {b : Option β} (h : Option.Rel R a b)
    (hf : ∀ a b, R a b → f a = f' b) : a.map f = b.map f' := by
  cases h with
  | none => rfl
  | some h => exact congrArg some (hf _ _ h)

theorem any_eq_any_of_rel {p : α → Bool} {q : β → Bool} {a : Option α} {b : Option β} (h : Option.Rel R a b)
    (hpq : ∀ a b, R a b → p a = q b) : a.any p = b.any q := by
  cases h with
  | none => rfl
  | some h => exact hpq _ _ h

theorem rel_or_of_rel {a a' : Option α} {b b' : Option β} (h : Option.Rel R a b) (h' : Option.Rel R a' b') :
    Option.Rel R (a.or a') (b.or b') := by
  cases h with
  | none => exact h'
  | some h => exact .some h

theorem rel_map_of_rel {S : γ → δ → Prop} {f : α → γ} {f' : β → δ} {a : Option α} {b : Option β}
    (h : Option.Rel R a b) (hf : ∀ a b, R a b → S (f a) (f' b)) : Option.Rel S (a.map f) (b.map f') := by
  cases h with
  | none => exact .none
  | some h => exact .some (hf _ _ h)

theorem rel_map_self {f : α → β} (h : ∀ a, R a (f a)) (o : Option α) : Option.Rel R o (o.map f) := by
  cases o with
  | none => exact .none
  | some a => exact .some (h a)

theorem forall₂_map_self {f : α → β} (h : ∀ a, R a (f a)) (l : List α) : List.Forall₂ R l (l.map f) := by
  rw [List.forall₂_map_right_iff, List.forall₂_same]
  exact fun a _ => h a

theorem rel_bind_of_rel {S : γ → δ → Prop} {f : α → Option γ} {f' : β → Option δ} {a : Option α}
    {b : Option β} (h : Option.Rel R a b) (hf : ∀ a b, R a b → Option.Rel S (f a) (f' b)) :
    Option.Rel S (a.bind f) (b.bind f') := by
  cases h with
  | none => exact .none
  | some h => exact hf _ _ h

theorem rel_getElem?_of_forall₂ (h : List.Forall₂ R l l') (i : Nat) : Option.Rel R l[i]? l'[i]? := by
  induction h generalizing i with
  | nil => exact .none
  | cons hhead _ ih =>
    cases i with
    | zero => exact .some hhead
    | succ i => exact ih i

theorem forall₂_getD_of_rel {a : Option (List α)} {b : Option (List β)}
    (h : Option.Rel (List.Forall₂ R) a b) : List.Forall₂ R (a.getD []) (b.getD []) := by
  cases h with
  | none => exact .nil
  | some h => exact h

/-- A predicate that does not tell related items apart holds at the same places. -/
theorem map_snd_filter_zipIdx_of_forall₂ {p : α → Bool} {q : β → Bool} (h : List.Forall₂ R l l')
    (hpq : ∀ a b, R a b → p a = q b) (n : Nat) :
    ((l.zipIdx n).filter fun e => p e.1).map (·.2) = ((l'.zipIdx n).filter fun e => q e.1).map (·.2) := by
  induction h generalizing n with
  | nil => rfl
  | cons hhead _ ih =>
    rw [List.zipIdx_cons, List.zipIdx_cons, List.filter_cons, List.filter_cons, hpq _ _ hhead]
    split
    · rw [List.map_cons, List.map_cons, ih (n + 1)]
    · exact ih (n + 1)

end Lists

/-! ## Dictionaries -/

namespace Dict

universe u v

variable {α : Type u} {β : Type v} {R : α → β → Prop} {d : Dict α} {d' : Dict β}

/-- Whether two entries have the same key and related values. -/
def RelatedEntries (R : α → β → Prop) (e : String × α) (e' : String × β) : Prop := e.1 = e'.1 ∧ R e.2 e'.2

/-- Whether two dictionaries have the same keys and related values under them. -/
def Related (R : α → β → Prop) (d : Dict α) (d' : Dict β) : Prop :=
  List.Forall₂ (RelatedEntries R) d.entries d'.entries

theorem Related.values (h : d.Related R d') : List.Forall₂ R d.values d'.values :=
  List.rel_map (fun _ _ he => he.2) h

theorem rel_findEntry {l : List (String × α)} {l' : List (String × β)}
    (h : List.Forall₂ (RelatedEntries R) l l') (k : String) :
    Option.Rel R (findEntry k l) (findEntry k l') := by
  induction h with
  | nil => exact .none
  | @cons e e' _ _ hhead _ ih =>
    rw [findEntry, findEntry, ← hhead.1]
    split
    · exact .some hhead.2
    · exact ih

theorem Related.get? (h : d.Related R d') (k : String) : Option.Rel R (d.get? k) (d'.get? k) :=
  rel_findEntry h k

theorem Related.map {γ : Type u} {δ : Type v} {S : γ → δ → Prop} {f : α → γ} {f' : β → δ}
    (h : d.Related R d') (hf : ∀ a b, R a b → S (f a) (f' b)) : (d.map f).Related S (d'.map f') :=
  List.rel_map (fun _ _ he => ⟨he.1, hf _ _ he.2⟩) h

/-- Each value is related to what comes of it. -/
theorem related_map_self {f : α → β} (h : ∀ a, R a (f a)) (d : Dict α) : d.Related R (d.map f) :=
  forall₂_map_self (fun e => ⟨rfl, h e.2⟩) d.entries

theorem forall₂_insertEntry {l : List (String × α)} {l' : List (String × β)}
    (h : List.Forall₂ (RelatedEntries R) l l') (k : String) {a : α} {b : β} (hab : R a b) :
    List.Forall₂ (RelatedEntries R) (insertEntry k a l) (insertEntry k b l') := by
  induction h with
  | nil => exact .cons ⟨rfl, hab⟩ .nil
  | @cons e e' _ _ hhead hrest ih =>
    rw [insertEntry, insertEntry, ← hhead.1]
    split
    · exact .cons ⟨rfl, hab⟩ (.cons ⟨rfl, hhead.2⟩ hrest)
    · split
      · exact .cons ⟨rfl, hab⟩ hrest
      · exact .cons ⟨rfl, hhead.2⟩ ih

theorem Related.insert (h : d.Related R d') (k : String) {a : α} {b : β} (hab : R a b) :
    (d.insert k a).Related R (d'.insert k b) :=
  forall₂_insertEntry h k hab

/-- Of entries that come to have one key, the ones that stay are related. -/
theorem Related.renameKeys {α β : Type} {R : α → β → Prop} {d : Dict α} {d' : Dict β} (h : d.Related R d')
    (old new : RouteId) : (d.renameKeys old new).Related R (d'.renameKeys old new) := by
  have hentries : List.Forall₂ (RelatedEntries R) (d.entries.map fun e => (renameKey old new e.1, e.2))
      (d'.entries.map fun e => (renameKey old new e.1, e.2)) :=
    List.rel_map (fun _ _ he => ⟨congrArg (renameKey old new) he.1, he.2⟩) h
  have hempty : (empty : Dict α).Related R (empty : Dict β) := List.Forall₂.nil
  refine List.rel_foldl (fun d d' hd e e' he => ?_) hempty hentries
  rw [← he.1]
  exact hd.insert e.1 he.2

end Dict

end RouteFleet
