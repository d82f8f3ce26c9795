import RouteFleet.Proofs.Yaml.Meaning
import RouteFleet.Proofs.Yaml.Parser

/-! # The content of nodes

What comes of a node is a value that can come of a document (`Node.sound_of_toValue?`), and the node of
such a value has it as its content (`Value.toValue?_toNode`) if and only if its tags are proper
(`Value.isProper_of_toValue?`).
-/

namespace RouteFleet.Yaml

open Text Value

/-! ## Nodes that nest not too deeply -/

/-- Whether the collections of a node nest at most `depth` deep. -/
inductive Node.Within : (depth : Nat) → Node → Prop
  | scalar {d : Nat} (tag : Option String) (bare : Bool) (text : String) :
    Within d (.scalar tag bare text)
  | sequence {d : Nat} (tag : Option String) {items : List Node} (h : ∀ n ∈ items, Within d n) :
    Within (d + 1) (.sequence tag items)
  | mapping {d : Nat} (tag : Option String) {entries : List (Node × Node)}
    (hkey : ∀ e ∈ entries, Within d e.1) (hvalue : ∀ e ∈ entries, Within d e.2) :
    Within (d + 1) (.mapping tag entries)

/-- What is made of the items of a list is each made of one of them. -/
theorem exists_of_mem_mapM {α β : Type} {f : α → Tree.ExpandM β} {l : List α} {r : List β}
    {k k' : Nat} (h : (l.mapM f).run k = some (r, k')) {y : β} (hy : y ∈ r) :
    ∃ x ∈ l, ∃ m m', (f x).run m = some (y, m') := by
  induction l generalizing k k' r with
  | nil =>
    obtain rfl : r = [] := by
      simp only [List.mapM_nil, StateT.run_pure] at h
      exact (congrArg Prod.fst (Option.some.inj h)).symm
    exact absurd hy List.not_mem_nil
  | cons x l ih =>
    simp only [List.mapM_cons, StateT.run_bind, Option.bind_eq_bind, Option.bind_eq_some_iff,
      StateT.run_pure] at h
    obtain ⟨⟨z, m⟩, hz, ⟨zs, m'⟩, hzs, hpure⟩ := h
    obtain rfl : z :: zs = r := congrArg Prod.fst (Option.some.inj hpure)
    rcases List.mem_cons.mp hy with rfl | hy
    · exact ⟨x, List.mem_cons_self, k, m, hz⟩
    · obtain ⟨w, hw, hrun⟩ := ih hzs hy
      exact ⟨w, List.mem_cons_of_mem _ hw, hrun⟩

namespace Tree

/-- What a tree is expanded to nests as deeply as it may. -/
theorem within_of_expand {targets : List (Nat × Tree)} {d : Nat} {tree : Tree} {k k' : Nat} {n : Node}
    (h : (expand targets d tree).run k = some (n, k')) : n.Within d := by
  induction d generalizing tree k k' n with
  | zero =>
    simp only [expand, StateT.run_bind, Option.bind_eq_bind, Option.bind_eq_some_iff] at h
    obtain ⟨⟨t, m⟩, -, h⟩ := h
    split at h
    · simp only [StateT.run_pure] at h
      obtain rfl := congrArg Prod.fst (Option.some.inj h)
      exact .scalar _ _ _
    · cases h
  | succ d ih =>
    simp only [expand, StateT.run_bind, Option.bind_eq_bind, Option.bind_eq_some_iff] at h
    obtain ⟨⟨t, m⟩, -, h⟩ := h
    split at h
    · cases h
    · simp only [StateT.run_pure] at h
      obtain rfl := congrArg Prod.fst (Option.some.inj h)
      exact .scalar _ _ _
    · simp only [StateT.run_bind, Option.bind_eq_bind, Option.bind_eq_some_iff, StateT.run_pure] at h
      obtain ⟨⟨items, m'⟩, hitems, h⟩ := h
      obtain rfl := congrArg Prod.fst (Option.some.inj h)
      refine .sequence _ fun x hx => ?_
      obtain ⟨t, -, m, m', hrun⟩ := exists_of_mem_mapM hitems hx
      exact ih hrun
    · simp only [StateT.run_bind, Option.bind_eq_bind, Option.bind_eq_some_iff, StateT.run_pure] at h
      obtain ⟨⟨entries, m'⟩, hentries, h⟩ := h
      obtain rfl := congrArg Prod.fst (Option.some.inj h)
      have hboth : ∀ e ∈ entries, e.1.Within d ∧ e.2.Within d := by
        intro e he
        obtain ⟨t, -, m, m', hrun⟩ := exists_of_mem_mapM hentries he
        simp only [StateT.run_bind, Option.bind_eq_bind, Option.bind_eq_some_iff,
          StateT.run_pure] at hrun
        obtain ⟨⟨key, m₁⟩, hkey, ⟨value, m₂⟩, hvalue, hrun⟩ := hrun
        obtain rfl := congrArg Prod.fst (Option.some.inj hrun)
        exact ⟨ih hkey, ih hvalue⟩
      exact .mapping _ (fun e he => (hboth e he).1) (fun e he => (hboth e he).2)

end Tree

/-- A document does not nest too deeply. -/
theorem Node.within_of_ofText? {text : String} {n : Node} (h : ofText? text = some n) :
    n.Within Tree.depthLimit := by
  simp only [ofText?, Option.bind_eq_bind, Option.bind_eq_some_iff, Tree.toNode?,
    Option.map_eq_some_iff] at h
  obtain ⟨ts, -, tree, -, ⟨m, k⟩, hexpand, rfl⟩ := h
  exact Tree.within_of_expand hexpand

/-! ## What comes of scalars -/

theorem Meaning.canonical_of_real? {cs : List Char} {r : Binary64} (h : Meaning.real? cs = some r) :
    r.IsCanonical := by
  have hdecimal : ∀ {negative : Bool} {o : Option (Nat × Int)} {s : Binary64},
      (o.map fun d => Binary64.ofDecimal negative d.1 d.2) = some s → s.IsCanonical := by
    intro negative o s hs
    obtain ⟨d, -, rfl⟩ := Option.map_eq_some_iff.mp hs
    exact Binary64.isCanonical_ofDecimal negative d.1 d.2
  have hliteral : ∀ {s : Binary64}, Binary64.ofLiteral? cs = some s → s.IsCanonical := by
    intro s hs
    unfold Binary64.ofLiteral? at hs
    split at hs <;> exact hdecimal hs
  rw [Meaning.real?] at h
  split at h
  · obtain rfl := Option.some.inj h
    trivial
  split at h
  · obtain rfl := Option.some.inj h
    trivial
  split at h
  · obtain rfl := Option.some.inj h
    trivial
  · split at h
    · rename_i hs
      obtain rfl := Option.some.inj h
      exact hliteral hs
    · exact nomatch h

/-- A meaning of which a value comes is in range. -/
theorem Meaning.sound_of_toValue? {m : Meaning} {s : String} {v : Value}
    (hreal : ∀ r, m = .real r → r.IsCanonical) (h : m.toValue? s = some v) (d : Nat) :
    Sound d v ∧ v.isScalar = true := by
  cases m with
  | null =>
    obtain rfl := Option.some.inj h
    exact ⟨.null, rfl⟩
  | bool b =>
    obtain rfl := Option.some.inj h
    exact ⟨.bool b, rfl⟩
  | integer n =>
    rw [Meaning.toValue?] at h
    split at h
    · rename_i hrange
      obtain rfl := Option.some.inj h
      rw [Bool.and_eq_true, decide_eq_true_eq, decide_eq_true_eq] at hrange
      exact ⟨.number hrange, rfl⟩
    · cases h
  | real r =>
    obtain rfl := Option.some.inj h
    exact ⟨.number (hreal r rfl), rfl⟩
  | text =>
    obtain rfl := Option.some.inj h
    exact ⟨.string s, rfl⟩

theorem Meaning.canonical_of_ofPlain {s : String} {r : Binary64} (h : Meaning.ofPlain s = .real r) :
    r.IsCanonical := by
  rw [Meaning.ofPlain] at h
  split at h
  · cases h
  split at h
  · cases h
  split at h
  · cases h
  split at h
  · cases h
  split at h
  · rename_i hr
    obtain rfl := Meaning.real.inj h
    exact Meaning.canonical_of_real? hr
  · cases h

theorem Node.sound_of_scalarValue? {tag : Option String} {bare : Bool} {s : String} {v : Value}
    (h : scalarValue? tag bare s = some v) (d : Nat) : Sound d v ∧ v.isScalar = true := by
  unfold scalarValue? at h
  split at h
  · obtain ⟨b, -, rfl⟩ := Option.map_eq_some_iff.mp h
    exact ⟨.bool b, rfl⟩
  · split at h
    · exact Meaning.sound_of_toValue? (fun r hr => Meaning.noConfusion hr) h d
    · exact nomatch h
  · obtain ⟨r, hr, rfl⟩ := Option.map_eq_some_iff.mp h
    exact ⟨.number (Meaning.canonical_of_real? hr), rfl⟩
  · split at h
    · obtain rfl := Option.some.inj h
      exact ⟨.null, rfl⟩
    · exact nomatch h
  · obtain rfl := Option.some.inj h
    exact ⟨.string s, rfl⟩
  · split at h
    · exact Meaning.sound_of_toValue? (fun r hr => Meaning.canonical_of_ofPlain hr) h d
    · obtain rfl := Option.some.inj h
      exact ⟨.string s, rfl⟩

/-! ## What comes of nodes -/

/-- What comes of a node is sound; it has no tag where tags are refused. -/
structure Node.Gives (tags : Bool) (d : Nat) (v : Value) : Prop where
  sound : Sound d v
  untagged : tags = false → v.allTags (fun _ => false) = true

/-- Tags stand before values without one. -/
theorem Node.gives_withTag? {tags : Bool} {tag : Option String} {o : Option Value} {v : Value} {d : Nat}
    (h : withTag? tags tag o = some v) (ho : ∀ w, o = some w → Gives tags d w ∧ w.isTagged = false) :
    Gives tags d v := by
  rw [withTag?] at h
  split at h
  · exact (ho v h).1
  · split at h
    · rename_i htags
      obtain ⟨w, hw, rfl⟩ := Option.map_eq_some_iff.mp h
      obtain ⟨hgives, huntagged⟩ := ho w hw
      exact ⟨.tagged _ hgives.sound huntagged, fun hfalse => absurd (hfalse.symm.trans htags) (by simp)⟩
    · exact nomatch h

theorem Node.gives_scalarValue? {tags : Bool} {tag : Option String} {bare : Bool} {s : String}
    {v : Value} (h : scalarValue? tag bare s = some v) (d : Nat) :
    Gives tags d v ∧ v.isTagged = false := by
  obtain ⟨hsound, hscalar⟩ := sound_of_scalarValue? h d
  refine ⟨⟨hsound, fun _ => ?_⟩, ?_⟩
  · cases v <;> first | rfl | exact nomatch hscalar
  · cases v <;> first | rfl | exact nomatch hscalar

theorem Node.gives_items {tags : Bool} {d : Nat} {items : List Node}
    (h : ∀ n ∈ items, ∀ v, n.toValue? tags = some v → Gives tags d v) {vs : List Value}
    (hvs : toValues? tags items = some vs) :
    (∀ v ∈ vs, Sound d v) ∧ (tags = false → allTagsOfItems (fun _ => false) vs = true) := by
  induction items generalizing vs with
  | nil =>
    obtain rfl := Option.some.inj hvs
    exact ⟨List.forall_mem_nil _, fun _ => rfl⟩
  | cons n items ih =>
    rw [toValues?] at hvs
    simp only [Option.bind_eq_bind, Option.bind_eq_some_iff, Option.pure_def, Option.some.injEq] at hvs
    obtain ⟨v, hv, ws, hws, rfl⟩ := hvs
    have hgives := h n List.mem_cons_self v hv
    obtain ⟨hsound, htag⟩ := ih (fun m hm => h m (List.mem_cons_of_mem _ hm)) hws
    refine ⟨List.forall_mem_cons.mpr ⟨hgives.sound, hsound⟩, fun htags => ?_⟩
    rw [allTagsOfItems, hgives.untagged htags, htag htags]
    rfl

theorem Node.gives_entries {tags : Bool} {d : Nat} {entries : List (Node × Node)}
    (hkey : ∀ e ∈ entries, ∀ v, e.1.toValue? tags = some v → Gives tags d v)
    (hvalue : ∀ e ∈ entries, ∀ v, e.2.toValue? tags = some v → Gives tags d v)
    {es : List (Value × Value)} (hes : toEntries? tags entries = some es) :
    ((∀ e ∈ es, Sound d e.1) ∧ (∀ e ∈ es, Sound d e.2) ∧ Unlike es) ∧
      (tags = false → allTagsOfEntries (fun _ => false) es = true) := by
  induction entries generalizing es with
  | nil =>
    obtain rfl := Option.some.inj hes
    exact ⟨⟨List.forall_mem_nil _, List.forall_mem_nil _, .nil⟩, fun _ => rfl⟩
  | cons e entries ih =>
    obtain ⟨k, n⟩ := e
    rw [toEntries?] at hes
    simp only [Option.bind_eq_bind, Option.bind_eq_some_iff] at hes
    obtain ⟨key, hk, v, hv, more, hmore, hif⟩ := hes
    split at hif
    · exact nomatch hif
    · rename_i hunlike
      obtain rfl := Option.some.inj hif
      have hgivesKey := hkey (k, n) List.mem_cons_self key hk
      have hgivesValue := hvalue (k, n) List.mem_cons_self v hv
      obtain ⟨⟨hkeys, hvalues, hpairs⟩, htag⟩ := ih
        (fun e he => hkey e (List.mem_cons_of_mem _ he))
        (fun e he => hvalue e (List.mem_cons_of_mem _ he)) hmore
      refine ⟨⟨List.forall_mem_cons.mpr ⟨hgivesKey.sound, hkeys⟩,
        List.forall_mem_cons.mpr ⟨hgivesValue.sound, hvalues⟩, List.pairwise_cons.mpr ⟨?_, hpairs⟩⟩,
        fun htags => ?_⟩
      · intro e he
        rw [hasKeyLike, List.any_eq_true] at hunlike
        exact Bool.eq_false_iff.mpr fun hlike => hunlike ⟨e, he, hlike⟩
      · rw [allTagsOfEntries, hgivesKey.untagged htags, hgivesValue.untagged htags, htag htags]
        rfl

theorem Node.gives_of_toValue? {tags : Bool} {d : Nat} {n : Node} (h : Within d n) :
    ∀ v, n.toValue? tags = some v → Gives tags d v := by
  induction h with
  | @scalar d tag bare text =>
    intro v hv
    rw [toValue?] at hv
    split at hv
    · exact (gives_scalarValue? hv d).1
    · exact gives_withTag? hv fun w hw => gives_scalarValue? hw d
  | @sequence d tag items h ih =>
    intro v hv
    rw [toValue?] at hv
    refine gives_withTag? hv fun w hw => ?_
    obtain ⟨vs, hvs, rfl⟩ := Option.map_eq_some_iff.mp hw
    obtain ⟨hsound, htag⟩ := gives_items ih hvs
    exact ⟨⟨.sequence hsound, htag⟩, rfl⟩
  | @mapping d tag entries hkey hvalue ihkey ihvalue =>
    intro v hv
    rw [toValue?] at hv
    refine gives_withTag? hv fun w hw => ?_
    obtain ⟨es, hes, rfl⟩ := Option.map_eq_some_iff.mp hw
    obtain ⟨⟨hkeys, hvalues, hunlike⟩, htag⟩ := gives_entries ihkey ihvalue hes
    exact ⟨⟨.mapping hkeys hvalues hunlike, htag⟩, rfl⟩

/-! ## Tags -/

/-- Whether a tag is read back as it is written: one that is nothing but its mark, or a name that
does not begin with one. -/
def isProperTag (t : String) : Bool := t == "!" || (t != "" && (stripLead? "!" t).isNone)

/-- The tag as which a tag is read that is written. -/
def readTag (t : String) : String := Node.tagName (String.ofList ((markedTag t).drop 1))

theorem ownTag?_markedText (t : String) :
    Node.ownTag? (some (markedText t)) = some (String.ofList ((markedTag t).drop 1)) := by
  obtain ⟨name, hname⟩ := Token.exists_markedTag t
  rw [markedText, hname]
  refine stripLead?_eq_some_iff.mpr ?_
  rw [← String.ofList_toList (s := "!"), ← String.ofList_append]
  rfl

/-- A text is not what comes after a mark in it. -/
theorem ne_mark_append {s rest : String} (h : s = "!" ++ rest) : rest ≠ s := by
  rintro rfl
  exact absurd (congrArg String.length h) (by simp)

theorem tagName_ne {rest t : String} (hrest : rest ≠ "") (h : t = "!" ++ rest) :
    Node.tagName rest ≠ t := by
  rw [Node.tagName, if_neg hrest]
  split
  · exact ne_mark_append h
  · rename_i r hr
    rintro rfl
    have hlength := congrArg String.length (h.trans (congrArg ("!" ++ ·) (append_of_stripLead hr)))
    simp only [String.length_append] at hlength
    have hone : "!".length = 1 := rfl
    omega
  · exact ne_mark_append h

theorem readTag_eq_iff {t : String} : readTag t = t ↔ isProperTag t = true := by
  rw [readTag, isProperTag, markedTag]
  cases hlead : stripLead? "!" t with
  | none =>
    have hne : t ≠ "!" := by
      rintro rfl
      exact absurd hlead (by decide)
    have hread : String.ofList (('!' :: t.toList).drop 1) = t := String.ofList_toList
    simp only [Option.isSome_none, Bool.false_eq_true, if_false, hread, Node.tagName, hlead]
    by_cases ht : t = ""
    · subst ht
      decide
    · simp [ht]
  | some rest =>
    have ht := append_of_stripLead hlead
    have hread : String.ofList (t.toList.drop 1) = rest := by
      rw [ht, String.toList_append]
      exact String.ofList_toList
    simp only [Option.isSome_some, if_true, hread]
    by_cases hrest : rest = ""
    · subst hrest
      subst ht
      decide
    · have hne : t ≠ "!" := fun hmark => hrest (by
        have hlength := congrArg String.length (ht.symm.trans hmark)
        simpa using hlength)
      simp [tagName_ne hrest ht, hne]

theorem withTag?_none (tags : Bool) (o : Option Value) : Node.withTag? tags none o = o := rfl

theorem withTag?_markedText (tags : Bool) (t : String) (o : Option Value) :
    Node.withTag? tags (some (markedText t)) o = if tags then o.map (.tagged (readTag t)) else none := by
  rw [Node.withTag?, ownTag?_markedText]
  rfl

/-! ## Nodes of values -/

/-- The tag of a node stands before what the node is without it. -/
theorem toValue?_toNode_tag {v : Value} (hv : v.isTagged = false) (tags : Bool) (t : String) :
    (v.toNode (some (markedText t))).toValue? tags =
      Node.withTag? tags (some (markedText t)) ((v.toNode none).toValue? tags) := by
  have hscalar : ∀ (bare : Bool) (s : String),
      Node.toValue? tags (.scalar (some (markedText t)) bare s) =
        Node.withTag? tags (some (markedText t)) (Node.toValue? tags (.scalar none bare s)) := by
    intro bare s
    rw [Node.toValue?, ownTag?_markedText]
    rfl
  cases v with
  | null => exact hscalar _ _
  | bool b => exact hscalar _ _
  | number n => exact hscalar _ _
  | string s => exact hscalar _ _
  | sequence items => rfl
  | mapping entries => rfl
  | tagged t content => exact nomatch hv

/-- A scalar's node is read as the scalar. -/
theorem toValue?_toNode_scalar {v : Value} (hv : v.isScalar = true) {d : Nat} (h : Sound d v)
    (tags : Bool) : (v.toNode none).toValue? tags = some v := by
  have hread := scalarValue?_scalarText hv h
  cases v with
  | null => exact hread
  | bool b => exact hread
  | number n => exact hread
  | string s => exact hread
  | sequence items => exact nomatch hv
  | mapping entries => exact nomatch hv
  | tagged t content => exact nomatch hv

/-- Whether a tag is taken by a reader who takes tags or not, and read back as it is written. -/
def keepsTag (tags : Bool) (t : String) : Bool := tags && isProperTag t

/-- What the tags of a value must be for its node to be read as the value. -/
def ReadsAsItself (tags : Bool) (v : Value) : Prop :=
  (v.toNode none).toValue? tags = some v ↔ v.allTags (keepsTag tags) = true

variable {tags : Bool}

theorem toValues?_itemsToNodes {items : List Value} (h : ∀ v ∈ items, ReadsAsItself tags v) :
    Node.toValues? tags (itemsToNodes items) = some items ↔
      allTagsOfItems (keepsTag tags) items = true := by
  induction items with
  | nil => exact ⟨fun _ => rfl, fun _ => rfl⟩
  | cons v rest ih =>
    have hv : _ ↔ _ := h v List.mem_cons_self
    have ih := ih fun w hw => h w (List.mem_cons_of_mem _ hw)
    rw [itemsToNodes, Node.toValues?, allTagsOfItems, Bool.and_eq_true, ← hv, ← ih]
    simp only [Option.bind_eq_bind, Option.bind_eq_some_iff, Option.pure_def, Option.some.injEq,
      List.cons.injEq]
    constructor
    · rintro ⟨w, hw, ws, hws, rfl, rfl⟩
      exact ⟨hw, hws⟩
    · rintro ⟨hw, hws⟩
      exact ⟨v, hw, rest, hws, rfl, rfl⟩

theorem hasKeyLike_eq_false {e : Value × Value} {rest : List (Value × Value)}
    (h : Unlike (e :: rest)) : Node.hasKeyLike e.1 rest = false := by
  rw [Node.hasKeyLike, List.any_eq_false]
  intro e' he'
  exact Bool.eq_false_iff.mp ((List.pairwise_cons.mp h).1 e' he')

theorem toEntries?_entriesToNodes {entries : List (Value × Value)} (hunlike : Unlike entries)
    (hkey : ∀ e ∈ entries, ReadsAsItself tags e.1) (hvalue : ∀ e ∈ entries, ReadsAsItself tags e.2) :
    Node.toEntries? tags (entriesToNodes entries) = some entries ↔
      allTagsOfEntries (keepsTag tags) entries = true := by
  induction entries with
  | nil => exact ⟨fun _ => rfl, fun _ => rfl⟩
  | cons e rest ih =>
    obtain ⟨k, v⟩ := e
    have hk : _ ↔ _ := hkey (k, v) List.mem_cons_self
    have hv : _ ↔ _ := hvalue (k, v) List.mem_cons_self
    have ih := ih (List.pairwise_cons.mp hunlike).2 (fun e he => hkey e (List.mem_cons_of_mem _ he))
      (fun e he => hvalue e (List.mem_cons_of_mem _ he))
    have hnew : Node.hasKeyLike k rest = false := hasKeyLike_eq_false hunlike
    rw [entriesToNodes, Node.toEntries?, allTagsOfEntries, Bool.and_eq_true, Bool.and_eq_true, ← hk,
      ← hv, ← ih]
    simp only [Option.bind_eq_bind, Option.bind_eq_some_iff]
    constructor
    · rintro ⟨key, hkey, w, hw, more, hmore, hif⟩
      split at hif
      · cases hif
      · injection hif with hlists
        injection hlists with hentry hmore'
        injection hentry with hkey' hw'
        exact ⟨⟨hkey' ▸ hkey, hw' ▸ hw⟩, hmore' ▸ hmore⟩
    · rintro ⟨⟨hkey, hw⟩, hmore⟩
      exact ⟨k, hkey, v, hw, rest, hmore, by simp [hnew]⟩

/-- A sound value is read from its node if and only if its tags are kept. -/
theorem readsAsItself {d : Nat} {v : Value} (h : Sound d v) : ReadsAsItself tags v := by
  have hscalar : ∀ {d : Nat} {v : Value}, v.isScalar = true → v.allTags (keepsTag tags) = true →
      Sound d v → ReadsAsItself tags v := fun hv htags h =>
    ⟨fun _ => htags, fun _ => toValue?_toNode_scalar hv h tags⟩
  induction h with
  | null => exact hscalar rfl rfl (.null (d := 0))
  | bool b => exact hscalar rfl rfl (.bool (d := 0) b)
  | number h => exact hscalar rfl rfl (.number (d := 0) h)
  | string s => exact hscalar rfl rfl (.string (d := 0) s)
  | sequence h ih =>
    rw [ReadsAsItself, toNode, Node.toValue?, withTag?_none, allTags, ← toValues?_itemsToNodes ih]
    simp
  | mapping hkey hvalue hunlike ihkey ihvalue =>
    rw [ReadsAsItself, toNode, Node.toValue?, withTag?_none, allTags,
      ← toEntries?_entriesToNodes hunlike ihkey ihvalue]
    simp
  | tagged t h hcontent ih =>
    have ih : _ ↔ _ := ih
    rw [ReadsAsItself, toNode, toValue?_toNode_tag hcontent, withTag?_markedText, allTags,
      Bool.and_eq_true, ← ih, keepsTag, Bool.and_eq_true, ← readTag_eq_iff]
    cases tags <;> simp [and_comm]

end RouteFleet.Yaml
