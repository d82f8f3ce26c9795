import RouteFleet.Proofs.Yaml.Sound
import RouteFleet.Proofs.Yaml.Tokens
import RouteFleet.Yaml.Alias

/-! # Reading the tokens of values

The tokens of a value make up the node of the value (`Tree.ofTokens?_tokens`), in which no alias
stands, so that nothing has to be put in its place (`Tree.toNode?_toTree`).
-/

namespace RouteFleet.Yaml

open Text Style Value

/-! ## Nodes of values -/

namespace Value

/-- A tag in full, with its mark. -/
def markedText (t : String) : String := String.ofList (markedTag t)

mutual

/-- The node that is written for a value, under a tag if one is given. -/
def toNode (tag : Option String) : Value → Node
  | .tagged t content => content.toNode (some (markedText t))
  | .sequence items => .sequence tag (itemsToNodes items)
  | .mapping entries => .mapping tag (entriesToNodes entries)
  | v => .scalar tag (decide (v.style = .plain)) v.scalarText

/-- The nodes that are written for some values. -/
def itemsToNodes : List Value → List Node
  | [] => []
  | v :: rest => v.toNode none :: itemsToNodes rest

/-- The nodes that are written for the keys and values of some entries. -/
def entriesToNodes : List (Value × Value) → List (Node × Node)
  | [] => []
  | (k, v) :: rest => (k.toNode none, v.toNode none) :: entriesToNodes rest

end

end Value

namespace Node

mutual

/-- A node as a tree without anchors. -/
def toTree : Node → Tree
  | .scalar tag bare text => .scalar none tag bare text
  | .sequence tag items => .sequence none tag (itemsToTrees items)
  | .mapping tag entries => .mapping none tag (entriesToTrees entries)

/-- Some nodes as trees. -/
def itemsToTrees : List Node → List Tree
  | [] => []
  | n :: rest => n.toTree :: itemsToTrees rest

/-- The nodes of some entries as trees. -/
def entriesToTrees : List (Node × Node) → List (Tree × Tree)
  | [] => []
  | (k, n) :: rest => (k.toTree, n.toTree) :: entriesToTrees rest

end

end Node

namespace Tree

open ReadM

/-- What is left to read of a document without directives. -/
def left (ts : List Token) (a : Dict Nat) : Reading := ⟨ts, a, standardHandles⟩

@[simp] theorem run_peek (t : Token) (ts : List Token) (a : Dict Nat) :
    peek.run (left (t :: ts) a) = some (t, left (t :: ts) a) := rfl

@[simp] theorem run_skip (t : Token) (ts : List Token) (a : Dict Nat) :
    skip.run (left (t :: ts) a) = some ((), left ts a) := rfl

@[simp] theorem run_skipIf (u t : Token) (ts : List Token) (a : Dict Nat) :
    (skipIf u).run (left (t :: ts) a) =
      some (decide (t = u), left (if t = u then ts else t :: ts) a) := by
  by_cases h : t = u <;> simp [skipIf, h]

@[simp] theorem run_isNext (us : List Token) (t : Token) (ts : List Token) (a : Dict Nat) :
    (isNext us).run (left (t :: ts) a) = some (us.contains t, left (t :: ts) a) := by
  simp [isNext]

/-! ## Tags -/

/-- The token of a tag, if there is one. -/
def tagTokens (tag : Option String) : List Token := (tag.map Token.ofTag).toList

theorem exists_ofTag (t : String) : ∃ handle suffix, Token.ofTag t = .tag handle suffix ∧
    ∀ (ts : List Token) (a : Dict Nat),
      (fullTag handle suffix).run (left ts a) = some (markedText t, left ts a) := by
  rw [Token.ofTag]
  split
  · rename_i h
    refine ⟨_, _, rfl, fun ts a => ?_⟩
    rw [markedText, h]
    rfl
  · refine ⟨_, _, rfl, fun ts a => ?_⟩
    obtain ⟨name, hname⟩ := Token.exists_markedTag t
    have hlead : "!" ++ String.ofList name = String.ofList ('!' :: name) := by
      rw [← String.ofList_toList (s := "!"), ← String.ofList_append]
      rfl
    rw [markedText, hname, ← hlead]
    rfl

/-- Whether a node without an anchor or a tag of its own begins with a token. -/
def beginsContent : Token → Bool
  | .alias _ | .anchor _ | .tag _ _ => false
  | _ => true

theorem run_properties (tag : Option String) {x : Token} (hx : beginsContent x = true)
    (ts : List Token) (a : Dict Nat) : properties.run (left (tagTokens tag ++ x :: ts) a) =
      some ((none, tag.map markedText), left (x :: ts) a) := by
  have hanchor : ReadM.anchor?.run (left (x :: ts) a) = some (none, left (x :: ts) a) := by
    cases x <;> first | rfl | exact nomatch hx
  cases tag with
  | none =>
    have htag : tag?.run (left (x :: ts) a) = some (none, left (x :: ts) a) := by
      cases x <;> first | rfl | exact nomatch hx
    simp [properties, tagTokens, hanchor, htag]
  | some t =>
    obtain ⟨handle, suffix, htoken, hfull⟩ := exists_ofTag t
    have hbefore : ReadM.anchor?.run (left (.tag handle suffix :: x :: ts) a) =
        some (none, left (.tag handle suffix :: x :: ts) a) := rfl
    have htag : tag?.run (left (.tag handle suffix :: x :: ts) a) =
        some (some (markedText t), left (x :: ts) a) := by
      simp [tag?, hfull]
    simp [properties, tagTokens, htoken, hanchor, hbefore, htag]

/-! ## Nodes -/

variable (tag : Option String) (b f : Bool) (fuel : Nat) (ts : List Token) (a : Dict Nat)

theorem tagTokens_cases (tag : Option String) :
    tagTokens tag = [] ∨ ∃ handle suffix, tagTokens tag = [.tag handle suffix] := by
  cases tag with
  | none => exact .inl rfl
  | some t =>
    obtain ⟨handle, suffix, htoken, -⟩ := exists_ofTag t
    exact .inr ⟨handle, suffix, congrArg (fun u => [u]) htoken⟩

theorem node_scalar (bare : Bool) (s : String) :
    (node b f (fuel + 1)).run (left (tagTokens tag ++ .scalar bare s :: ts) a) =
      some (.scalar none (tag.map markedText) bare s, left ts a) := by
  have hproperties := run_properties tag (x := .scalar bare s) rfl ts a
  rcases tagTokens_cases tag with h | ⟨handle, suffix, h⟩ <;>
    simp only [h, List.nil_append, List.singleton_append] at hproperties ⊢ <;>
    simp [node, hproperties]

theorem node_flowSequence :
    (node b f (fuel + 1)).run (left (tagTokens tag ++ .flowSequenceStart :: ts) a) =
      ((flowItems true fuel).run (left ts a)).map
        fun p => (.sequence none (tag.map markedText) p.1, p.2) := by
  have hproperties := run_properties tag (x := .flowSequenceStart) rfl ts a
  rcases tagTokens_cases tag with h | ⟨handle, suffix, h⟩ <;>
    simp only [h, List.nil_append, List.singleton_append] at hproperties ⊢ <;>
    simp [node, hproperties]

theorem node_flowMapping :
    (node b f (fuel + 1)).run (left (tagTokens tag ++ .flowMappingStart :: ts) a) =
      ((flowEntries true fuel).run (left ts a)).map
        fun p => (.mapping none (tag.map markedText) p.1, p.2) := by
  have hproperties := run_properties tag (x := .flowMappingStart) rfl ts a
  rcases tagTokens_cases tag with h | ⟨handle, suffix, h⟩ <;>
    simp only [h, List.nil_append, List.singleton_append] at hproperties ⊢ <;>
    simp [node, hproperties]

theorem node_blockSequence :
    (node true f (fuel + 1)).run (left (tagTokens tag ++ .blockSequenceStart :: ts) a) =
      ((blockItems fuel).run (left ts a)).map
        fun p => (.sequence none (tag.map markedText) p.1, p.2) := by
  have hproperties := run_properties tag (x := .blockSequenceStart) rfl ts a
  rcases tagTokens_cases tag with h | ⟨handle, suffix, h⟩ <;>
    simp only [h, List.nil_append, List.singleton_append] at hproperties ⊢ <;>
    simp [node, hproperties]

theorem node_blockMapping :
    (node true f (fuel + 1)).run (left (tagTokens tag ++ .blockMappingStart :: ts) a) =
      ((blockEntries fuel).run (left ts a)).map
        fun p => (.mapping none (tag.map markedText) p.1, p.2) := by
  have hproperties := run_properties tag (x := .blockMappingStart) rfl ts a
  rcases tagTokens_cases tag with h | ⟨handle, suffix, h⟩ <;>
    simp only [h, List.nil_append, List.singleton_append] at hproperties ⊢ <;>
    simp [node, hproperties]

theorem node_flush :
    (node b true (fuel + 1)).run (left (tagTokens tag ++ .blockEntry :: ts) a) =
      ((flushItems fuel).run (left (.blockEntry :: ts) a)).map
        fun p => (.sequence none (tag.map markedText) p.1, p.2) := by
  have hproperties := run_properties tag (x := .blockEntry) rfl ts a
  rcases tagTokens_cases tag with h | ⟨handle, suffix, h⟩ <;>
    simp only [h, List.nil_append, List.singleton_append] at hproperties ⊢ <;>
    simp [node, hproperties]

theorem nodeOr_eq {ends : List Token} {x : Token} (h : ends.contains x = false) :
    (nodeOr ends b f (fuel + 1)).run (left (x :: ts) a) =
      (node b f fuel).run (left (x :: ts) a) := by
  rw [nodeOr, StateT.run_bind, run_isNext, h]
  rfl

/-- What the tokens of a value begin with ends no block and is no mark of an entry; outside mappings,
nor is it the mark of an item. -/
theorem exists_tokens_cons (v : Value) (place : Value.Place) (inMapping : Bool) :
    ∃ x more, v.tokens place inMapping = x :: more ∧ x ∉ [Token.key, .value, .blockEnd] ∧
      (inMapping = false → x ≠ .blockEntry) := by
  cases v with
  | tagged t content =>
    obtain ⟨handle, suffix, htoken, -⟩ := exists_ofTag t
    exact ⟨_, _, by rw [Value.tokens, htoken], by simp, by simp⟩
  | sequence items =>
    cases items with
    | nil => exact ⟨_, _, rfl, by simp, by simp⟩
    | cons item items =>
      rw [Value.tokens]
      split
      · exact absurd ‹_› Bool.false_ne_true
      split
      · rename_i hflush
        refine ⟨_, _, rfl, by simp, ?_⟩
        rintro rfl
        exact absurd hflush Bool.false_ne_true
      · exact ⟨_, _, rfl, by simp, by simp⟩
  | mapping entries =>
    cases entries with
    | nil => exact ⟨_, _, rfl, by simp, by simp⟩
    | cons entry entries => exact ⟨_, _, rfl, by simp, by simp⟩
  | _ => exact ⟨_, _, rfl, by simp [scalarToken], by simp [scalarToken]⟩

/-- Whether the tokens of a value, after those of a tag if there is one, make up its node. -/
def ReadsAs (v : Value) : Prop :=
  ∀ ⦃place : Value.Place⦄ ⦃inMapping : Bool⦄ ⦃tag : Option String⦄ ⦃fuel : Nat⦄ ⦃rest : List Token⦄
    ⦃a : Dict Nat⦄, (tag.isSome → v.isTagged = false) →
    rest.head? ≠ some .blockEntry ∨ inMapping = false →
    4 * (v.tokens place inMapping).length ≤ fuel →
    (node true inMapping fuel).run (left (tagTokens tag ++ (v.tokens place inMapping ++ rest)) a) =
      some ((v.toNode (tag.map markedText)).toTree, left rest a)

/-- A value after the mark of an item, or of a key or value. -/
theorem ReadsAs.nodeOr {v : Value} (h : ReadsAs v) (place : Value.Place) (inMapping : Bool)
    (ends : List Token) (hends : ∀ x ∈ ends, x ∈ [Token.blockEntry, .key, .value, .blockEnd] ∧
      (inMapping = true → x ≠ .blockEntry)) (rest : List Token)
    (hrest : rest.head? ≠ some .blockEntry ∨ inMapping = false) (a : Dict Nat) (fuel : Nat)
    (hfuel : 4 * (v.tokens place inMapping).length < fuel) :
    (nodeOr ends true inMapping fuel).run (left (v.tokens place inMapping ++ rest) a) =
      some ((v.toNode none).toTree, left rest a) := by
  obtain ⟨fuel, rfl⟩ : ∃ n, fuel = n + 1 := ⟨fuel - 1, by omega⟩
  obtain ⟨x, more, htokens, hmark, hitem⟩ := exists_tokens_cons v place inMapping
  have hnode := @h place inMapping none fuel rest a (fun h => nomatch h) hrest
    (Nat.le_of_lt_succ hfuel)
  rw [htokens] at hnode ⊢
  have hx : ends.contains x = false := by
    rw [Bool.eq_false_iff, ne_eq, List.contains_iff_mem]
    intro hmem
    obtain ⟨hlist, hfree⟩ := hends x hmem
    rcases List.mem_cons.mp hlist with rfl | hlist
    · cases inMapping with
      | false => exact hitem rfl rfl
      | true => exact hfree rfl rfl
    · exact hmark hlist
  rw [List.cons_append, nodeOr_eq true inMapping fuel (more ++ rest) a hx]
  exact hnode

/-! ## Collections -/

theorem run_blockItems {items : List Value} (h : ∀ v ∈ items, ReadsAs v) {fuel : Nat}
    {rest : List Token} {a : Dict Nat} (hfuel : 4 * (itemTokens items).length < fuel) :
    (blockItems fuel).run (left (itemTokens items ++ .blockEnd :: rest) a) =
      some (Node.itemsToTrees (itemsToNodes items), left rest a) := by
  induction items generalizing fuel with
  | nil =>
    obtain ⟨fuel, rfl⟩ : ∃ n, fuel = n + 1 := ⟨fuel - 1, by omega⟩
    simp [itemTokens, blockItems, itemsToNodes, Node.itemsToTrees]
  | cons v items ih =>
    obtain ⟨fuel, rfl⟩ : ∃ n, fuel = n + 1 := ⟨fuel - 1, by omega⟩
    rw [itemTokens, List.length_append, List.length_cons] at hfuel
    have hitem := (h v List.mem_cons_self).nodeOr .afterMark false [.blockEntry, .blockEnd]
      (by simp) (itemTokens items ++ .blockEnd :: rest) (.inr rfl) a fuel (by omega)
    have hrest := @ih (fun w hw => h w (List.mem_cons_of_mem _ hw)) fuel (by omega)
    rw [itemTokens, blockItems]
    simp [hitem, hrest, itemsToNodes, Node.itemsToTrees]

/-- The items of a sequence that is not indented end where no other item follows. -/
theorem run_flushItems {items : List Value} (h : ∀ v ∈ items, ReadsAs v) {fuel : Nat}
    {rest : List Token} (hrest : rest.head? ≠ some .blockEntry) {a : Dict Nat}
    (hfuel : 4 * (itemTokens items).length < fuel + 2) (hpos : 0 < fuel) :
    (flushItems fuel).run (left (itemTokens items ++ rest) a) =
      some (Node.itemsToTrees (itemsToNodes items), left rest a) := by
  induction items generalizing fuel with
  | nil =>
    obtain ⟨fuel, rfl⟩ : ∃ n, fuel = n + 1 := ⟨fuel - 1, by omega⟩
    cases rest with
    | nil => rfl
    | cons x rest =>
      have hx : x ≠ .blockEntry := by simpa using hrest
      simp [itemTokens, flushItems, itemsToNodes, Node.itemsToTrees, hx]
  | cons v items ih =>
    obtain ⟨fuel, rfl⟩ : ∃ n, fuel = n + 1 := ⟨fuel - 1, by omega⟩
    rw [itemTokens, List.length_append, List.length_cons] at hfuel
    have hitem := (h v List.mem_cons_self).nodeOr .afterMark false
      [.blockEntry, .key, .value, .blockEnd] (by simp) (itemTokens items ++ rest) (.inr rfl) a fuel
      (by omega)
    have hitems := @ih (fun w hw => h w (List.mem_cons_of_mem _ hw)) fuel (by omega) (by omega)
    rw [itemTokens, flushItems]
    simp [hitem, hitems, itemsToNodes, Node.itemsToTrees]

theorem run_blockEntries {entries : List (Value × Value)} (hkey : ∀ e ∈ entries, ReadsAs e.1)
    (hvalue : ∀ e ∈ entries, ReadsAs e.2) {fuel : Nat} {rest : List Token} {a : Dict Nat}
    (hfuel : 4 * (entryTokens entries).length < fuel) :
    (blockEntries fuel).run (left (entryTokens entries ++ .blockEnd :: rest) a) =
      some (Node.entriesToTrees (entriesToNodes entries), left rest a) := by
  induction entries generalizing fuel with
  | nil =>
    obtain ⟨fuel, rfl⟩ : ∃ n, fuel = n + 1 := ⟨fuel - 1, by omega⟩
    simp [entryTokens, blockEntries, entriesToNodes, Node.entriesToTrees]
  | cons e entries ih =>
    obtain ⟨k, v⟩ := e
    obtain ⟨fuel, rfl⟩ : ∃ n, fuel = n + 1 := ⟨fuel - 1, by omega⟩
    rw [entryTokens] at hfuel
    simp only [List.length_append, List.length_cons] at hfuel
    have hnext : (entryTokens entries ++ .blockEnd :: rest).head? ≠ some .blockEntry := by
      cases entries with
      | nil => exact fun h => nomatch h
      | cons e entries => exact fun h => nomatch h
    have hk : ReadsAs k := hkey (k, v) List.mem_cons_self
    have hv : ReadsAs v := hvalue (k, v) List.mem_cons_self
    have hfirst := hk.nodeOr (placeOf k) true [.key, .value, .blockEnd] (by simp)
      (.value :: (v.tokens (placeOf k) true ++ (entryTokens entries ++ .blockEnd :: rest)))
      (.inl fun h => nomatch h) a fuel (by omega)
    have hsecond := hv.nodeOr (placeOf k) true [.key, .value, .blockEnd] (by simp)
      (entryTokens entries ++ .blockEnd :: rest) (.inl hnext) a fuel (by omega)
    have hentries := @ih (fun e he => hkey e (List.mem_cons_of_mem _ he))
      (fun e he => hvalue e (List.mem_cons_of_mem _ he)) fuel (by omega)
    rw [entryTokens, blockEntries]
    simp [hfirst, hsecond, hentries, entriesToNodes, Node.entriesToTrees]

/-! ## Putting the parts together -/

theorem readsAs_sequence {items : List Value} (h : ∀ v ∈ items, ReadsAs v) :
    ReadsAs (.sequence items) := by
  intro place inMapping tag fuel rest a _ hrest hfuel
  cases items with
  | nil =>
    obtain ⟨fuel, rfl⟩ : ∃ n, fuel = n + 2 := ⟨fuel - 2, by simp [Value.tokens] at hfuel; omega⟩
    refine (node_flowSequence tag true inMapping (fuel + 1) (.flowSequenceEnd :: rest) a).trans ?_
    simp [flowItems, toNode, Node.toTree, itemsToNodes, Node.itemsToTrees]
  | cons item items =>
    by_cases hflush : (inMapping && place = .afterKey) = true
    · have htokens : Value.tokens place inMapping (.sequence (item :: items)) =
          itemTokens (item :: items) := by
        rw [Value.tokens, if_pos hflush]
        rfl
      obtain rfl : inMapping = true := (Bool.and_eq_true_iff.mp hflush).1
      rw [htokens] at hfuel ⊢
      obtain ⟨fuel, rfl⟩ : ∃ n, fuel = n + 1 := ⟨fuel - 1, by simp [itemTokens] at hfuel; omega⟩
      have hitems := @run_flushItems _ h fuel _ (hrest.resolve_right (by simp)) a
        (by omega) (by simp [itemTokens] at hfuel; omega)
      rw [itemTokens, List.cons_append, List.cons_append] at hitems ⊢
      rw [node_flush tag true fuel _ a, hitems]
      rfl
    · have htokens : Value.tokens place inMapping (.sequence (item :: items)) =
          .blockSequenceStart :: (itemTokens (item :: items) ++ [.blockEnd]) := by
        rw [Value.tokens, if_neg hflush]
        rfl
      rw [htokens] at hfuel ⊢
      rw [List.length_cons, List.length_append, List.length_singleton] at hfuel
      obtain ⟨fuel, rfl⟩ : ∃ n, fuel = n + 1 := ⟨fuel - 1, by omega⟩
      have hitems := @run_blockItems _ h fuel rest a (by omega)
      rw [List.cons_append, List.append_assoc, List.singleton_append,
        node_blockSequence tag inMapping fuel _ a, hitems]
      rfl

theorem readsAs_mapping {entries : List (Value × Value)} (hkey : ∀ e ∈ entries, ReadsAs e.1)
    (hvalue : ∀ e ∈ entries, ReadsAs e.2) : ReadsAs (.mapping entries) := by
  intro place inMapping tag fuel rest a _ hrest hfuel
  cases entries with
  | nil =>
    obtain ⟨fuel, rfl⟩ : ∃ n, fuel = n + 2 := ⟨fuel - 2, by simp [Value.tokens] at hfuel; omega⟩
    refine (node_flowMapping tag true inMapping (fuel + 1) (.flowMappingEnd :: rest) a).trans ?_
    simp [flowEntries, toNode, Node.toTree, entriesToNodes, Node.entriesToTrees]
  | cons entry entries =>
    have htokens : Value.tokens place inMapping (.mapping (entry :: entries)) =
        .blockMappingStart :: (entryTokens (entry :: entries) ++ [.blockEnd]) := by
      rw [Value.tokens]
      rfl
    rw [htokens] at hfuel ⊢
    rw [List.length_cons, List.length_append, List.length_singleton] at hfuel
    obtain ⟨fuel, rfl⟩ : ∃ n, fuel = n + 1 := ⟨fuel - 1, by omega⟩
    have hentries := @run_blockEntries _ hkey hvalue fuel rest a (by omega)
    rw [List.cons_append, List.append_assoc, List.singleton_append,
      node_blockMapping tag inMapping fuel _ a, hentries]
    rfl

/-- The tokens of a value that can come of a document make up its node. -/
theorem readsAs {d : Nat} {v : Value} (h : Sound d v) : ReadsAs v := by
  induction h with
  | sequence h ih => exact readsAs_sequence ih
  | mapping hkey hvalue hunlike ihkey ihvalue => exact readsAs_mapping ihkey ihvalue
  | tagged t h hcontent ih =>
    intro place inMapping tag fuel rest a htag hrest hfuel
    cases tag with
    | none =>
      rw [Value.tokens, List.length_cons] at hfuel
      exact @ih .afterKey inMapping (some t) fuel rest a (fun _ => hcontent) hrest (by omega)
    | some u => exact absurd (htag rfl) (by simp [isTagged])
  | _ =>
    intro place inMapping tag fuel rest a htag hrest hfuel
    obtain ⟨fuel, rfl⟩ : ∃ n, fuel = n + 1 := ⟨fuel - 1, by simp [Value.tokens] at hfuel; omega⟩
    exact node_scalar tag true inMapping fuel rest a _ _

/-! ## Documents -/

/-- The tokens of a mapping, as a document's, make up its node. -/
theorem ofTokens?_tokens {d : Nat} {entries : List (Value × Value)}
    (h : Sound d (.mapping entries)) :
    ofTokens? ((Value.mapping entries).tokens .afterMark false ++ [.streamEnd]) =
      some ((Value.mapping entries).toNode none).toTree := by
  obtain ⟨x, more, htokens, hopens, hend⟩ : ∃ x more,
      (Value.mapping entries).tokens .afterMark false = x :: more ∧ opensDocument x = false ∧
        x ≠ .streamEnd := by
    cases entries with
    | nil => exact ⟨_, _, rfl, rfl, by simp⟩
    | cons entry entries => exact ⟨_, _, rfl, rfl, by simp⟩
  have hnode := @readsAs d _ h .afterMark false none
    (4 * (x :: more ++ [Token.streamEnd]).length + 4) [.streamEnd] .empty (fun h => nomatch h) (.inr rfl) (by rw [htokens]; simp; omega)
  rw [htokens] at hnode ⊢
  have hpeek : peek.run { tokens := x :: (more ++ [Token.streamEnd]) } =
      some (x, { tokens := x :: (more ++ [Token.streamEnd]) }) := rfl
  have hstart : ∀ ts, (modify fun r => { r with handles := standardHandles } : ReadM Unit).run
      { tokens := ts } = some ((), left ts .empty) := fun _ => rfl
  have hends : (modify fun r => { r with tokens := skipEnds r.tokens } : ReadM Unit).run
      (left [.streamEnd] .empty) = some ((), left [.streamEnd] .empty) := rfl
  simp only [tagTokens, Option.map_none, Option.toList_none, List.nil_append, List.cons_append]
    at hnode ⊢
  simp only [ofTokens?, document, StateT.run_bind, hpeek, Option.bind_eq_bind, Option.bind_some,
    if_neg hend, hopens, Bool.false_eq_true, if_false, hstart, hnode, hends, run_peek, if_true]
  rfl

/-! ## Without aliases -/

theorem expand_items {targets : List (Nat × Tree)} {d n : Nat} {items : List Value}
    (h : ∀ v ∈ items, (expand targets d (v.toNode none).toTree).run n = some (v.toNode none, n)) :
    ((Node.itemsToTrees (itemsToNodes items)).mapM (expand targets d)).run n =
      some (itemsToNodes items, n) := by
  induction items with
  | nil => rfl
  | cons v items ih =>
    have hv := h v List.mem_cons_self
    have hitems := ih fun w hw => h w (List.mem_cons_of_mem _ hw)
    simp only [itemsToNodes, Node.itemsToTrees, List.mapM_cons, StateT.run_bind, hv, hitems,
      Option.bind_eq_bind, Option.bind_some]
    rfl

theorem expand_entries {targets : List (Nat × Tree)} {d n : Nat} {entries : List (Value × Value)}
    (hkey : ∀ e ∈ entries, (expand targets d (e.1.toNode none).toTree).run n =
      some (e.1.toNode none, n))
    (hvalue : ∀ e ∈ entries, (expand targets d (e.2.toNode none).toTree).run n =
      some (e.2.toNode none, n)) :
    ((Node.entriesToTrees (entriesToNodes entries)).mapM fun (e : Tree × Tree) => do
      let key ← expand targets d e.1
      return (key, ← expand targets d e.2)).run n = some (entriesToNodes entries, n) := by
  induction entries with
  | nil => rfl
  | cons e entries ih =>
    have hk := hkey e List.mem_cons_self
    have hv := hvalue e List.mem_cons_self
    have hentries := ih (fun e he => hkey e (List.mem_cons_of_mem _ he))
      fun e he => hvalue e (List.mem_cons_of_mem _ he)
    obtain ⟨k, v⟩ := e
    simp only at hk hv
    simp only [entriesToNodes, Node.entriesToTrees, List.mapM_cons, StateT.run_bind, hk, hv,
      hentries, Option.bind_eq_bind, Option.bind_some, StateT.run_pure, Option.pure_def]

/-- Where no alias stands nothing is put in its place. -/
theorem expand_toNode {d : Nat} {v : Value} (h : Sound d v) (targets : List (Nat × Tree))
    (tag : Option String) (n : Nat) :
    (expand targets d (v.toNode tag).toTree).run n = some (v.toNode tag, n) := by
  induction h generalizing tag with
  | @sequence d items h ih =>
    have hitems := expand_items fun v hv => ih v hv none
    rw [expand, toNode, Node.toTree]
    simp only [follow, StateT.run_bind, StateT.run_pure, Option.pure_def, Option.bind_eq_bind,
      Option.bind_some, hitems]
  | @mapping d entries hkey hvalue hunlike ihkey ihvalue =>
    have hentries := expand_entries (fun e he => ihkey e he none) fun e he => ihvalue e he none
    rw [expand, toNode, Node.toTree]
    simp only [follow, StateT.run_bind, StateT.run_pure, Option.pure_def, Option.bind_eq_bind,
      Option.bind_some, hentries]
  | tagged t h hcontent ih => exact ih _
  | @null d => cases d <;> rfl
  | @bool d b => cases d <;> rfl
  | @number d n h => cases d <;> rfl
  | @string d s => cases d <;> rfl

theorem toNode?_toTree {v : Value} (h : Sound depthLimit v) :
    (v.toNode none).toTree.toNode? = some (v.toNode none) := by
  rw [toNode?, expand_toNode h]
  rfl

end Tree

end RouteFleet.Yaml
