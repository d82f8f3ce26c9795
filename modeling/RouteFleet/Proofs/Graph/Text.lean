import RouteFleet.Fleet.Basic
import RouteFleet.Proofs.Graph.RoundTrip
import RouteFleet.Proofs.Text.Bytes
import RouteFleet.Proofs.Yaml.Document

/-! # Storing graphs

A graph that was read from an object is written and read back as it was if and only if it can be
written and each of its tags is kept (`Fleet.graphOf_bytesOf_iff`). Both may fail only for what stands
in middlewares that are kept as they are, or beside the managed fields.
-/

namespace RouteFleet

open Text Yaml Value

/-! ## Tags that are kept -/

/-- Whether a tag is read back from a document as it was before it was written. -/
def Yaml.isKeptTag (t : String) : Bool := isScannable t && isProperTag t

namespace Yaml.Value

mutual

theorem allTags_and (p q : String → Bool) : ∀ v : Value,
    v.allTags (fun t => p t && q t) = (v.allTags p && v.allTags q)
  | .null | .bool _ | .number _ | .string _ => rfl
  | .sequence items => allTagsOfItems_and p q items
  | .mapping entries => allTagsOfEntries_and p q entries
  | .tagged t content => by
    rw [allTags, allTags, allTags, allTags_and p q content]
    ac_rfl

theorem allTagsOfItems_and (p q : String → Bool) : ∀ items : List Value,
    allTagsOfItems (fun t => p t && q t) items = (allTagsOfItems p items && allTagsOfItems q items)
  | [] => rfl
  | v :: rest => by
    rw [allTagsOfItems, allTagsOfItems, allTagsOfItems, allTags_and p q v,
      allTagsOfItems_and p q rest]
    ac_rfl

theorem allTagsOfEntries_and (p q : String → Bool) : ∀ entries : List (Value × Value),
    allTagsOfEntries (fun t => p t && q t) entries =
      (allTagsOfEntries p entries && allTagsOfEntries q entries)
  | [] => rfl
  | (k, v) :: rest => by
    rw [allTagsOfEntries, allTagsOfEntries, allTagsOfEntries, allTags_and p q k, allTags_and p q v,
      allTagsOfEntries_and p q rest]
    ac_rfl

end

end Yaml.Value

/-! ## Texts of graphs -/

namespace Graph

/-- How deeply what stands innermost beside managed fields may nest. -/
def extraDepth : Nat := Tree.depthLimit - 7

/-- Every graph that is read is sound. -/
theorem sound_of_ofText? {text : String} {g : Graph} (h : ofText? text = some g) :
    g.Sound extraDepth := by
  obtain ⟨n, hn, hread⟩ := Option.bind_eq_some_iff.mp h
  exact sound_of_ofNode? (Node.within_of_ofText? hn) hread

/-- The text of a sound graph is read as the node of its value, unless one of its tags ends too early. -/
theorem nodeOfText?_write {g : Graph} (h : g.Sound extraDepth) : Node.ofText? g.toValue.write =
    if g.toValue.allTags isScannable then some (g.toValue.toNode none) else none := by
  have hsound : Value.Sound Tree.depthLimit g.toValue := sound_toValue h
  rw [toValue] at hsound ⊢
  exact Node.ofText?_write hsound

/-- The text of a sound graph is read as the graph if and only if the graph's tags are kept. -/
theorem ofText?_write_iff {g : Graph} (h : g.Sound extraDepth) :
    ofText? g.toValue.write = some g ↔ g.toValue.allTags isKeptTag = true := by
  have hkept : g.toValue.allTags isKeptTag =
      (g.toValue.allTags isScannable && g.toValue.allTags isProperTag) := allTags_and ..
  rw [ofText?, nodeOfText?_write h, hkept, Bool.and_eq_true, ← ofNode?_toValue_iff h]
  by_cases hscan : g.toValue.allTags isScannable = true
  · rw [if_pos hscan, Option.bind_some, and_iff_right hscan]
  · rw [if_neg hscan, Option.bind_none]
    exact ⟨(nomatch ·), fun hboth => absurd hboth.1 hscan⟩

/-- Whether a graph is another in which some middlewares may be other ones under the same names. Where the
tags of the other are kept, it is the other. -/
structure RereadAs (g g' : Graph) : Prop where
  routers : g'.http.routers = g.http.routers
  services : g'.http.services = g.http.services
  middlewares : ∀ k, g'.http.middlewares.contains k = g.http.middlewares.contains k
  kept : g.toValue.allTags isKeptTag = true → g' = g

theorem RereadAs.refl (g : Graph) : g.RereadAs g := ⟨rfl, rfl, fun _ => rfl, fun _ => rfl⟩

/-- If the text of a sound graph is read as a graph at all, all but some middlewares is as it was. -/
theorem rereadAs_of_ofText? {g g' : Graph} (h : g.Sound extraDepth)
    (hread : ofText? g.toValue.write = some g') : g.RereadAs g' := by
  have hkept : g.toValue.allTags isKeptTag = true → g' = g := fun htags =>
    Option.some.inj (hread.symm.trans ((ofText?_write_iff h).mpr htags))
  rw [ofText?, nodeOfText?_write h] at hread
  split at hread
  swap
  · exact nomatch hread
  rw [Option.bind_some, ofNode?_toValue h] at hread
  obtain ⟨http, hhttp, rfl⟩ := Option.map_eq_some_iff.mp hread
  split at hhttp
  · obtain rfl := Option.some.inj hhttp
    exact ⟨rfl, rfl, fun _ => rfl, hkept⟩
  · rw [HttpSection.ofNode?_toValue h.http] at hhttp
    obtain ⟨middlewares, hmiddlewares, rfl⟩ := Option.map_eq_some_iff.mp hhttp
    exact ⟨rfl, rfl, contains_of_nodeDictField? hmiddlewares, hkept⟩

end Graph

/-! ## Objects -/

namespace Fleet

/-- Where a graph can be written at all, it is written as the text of its value. -/
theorem bytesOf_eq_ok_iff {key : String} {g : Graph} {bytes : ByteArray} :
    bytesOf key g = .ok bytes ↔ g.isWritable = true ∧ bytes = g.toValue.write.toUTF8 := by
  rw [bytesOf, Graph.toText?]
  by_cases h : g.isWritable = true
  · rw [if_pos h]
    simp only [Except.ok.injEq, h, true_and, eq_comm]
  · rw [if_neg h]
    exact ⟨(nomatch ·), fun hboth => absurd hboth.1 h⟩

theorem graphOf_eq_ok_iff {key : String} {bytes : ByteArray} {g : Graph} :
    graphOf key bytes = .ok g ↔ Graph.ofBytes? bytes = some g := by
  rw [graphOf]
  cases Graph.ofBytes? bytes with
  | none => exact ⟨(nomatch ·), (nomatch ·)⟩
  | some g' => simp only [Except.ok.injEq, Option.some.injEq]

theorem ofBytes?_toUTF8 (text : String) : Graph.ofBytes? text.toUTF8 = Graph.ofText? text := by
  rw [Graph.ofBytes?, fromUTF8?_toUTF8, Option.bind_some]

theorem rereadAs_of_graphOf {key : String} {g g' : Graph} {bytes : ByteArray}
    (h : g.Sound Graph.extraDepth) (hwrite : bytesOf key g = .ok bytes)
    (hread : graphOf key bytes = .ok g') : g.RereadAs g' := by
  rw [(bytesOf_eq_ok_iff.mp hwrite).2, graphOf_eq_ok_iff, ofBytes?_toUTF8] at hread
  exact Graph.rereadAs_of_ofText? h hread

/-- What is read from an object is sound. -/
theorem sound_of_graphOf {key : String} {bytes : ByteArray} {g : Graph} (h : graphOf key bytes = .ok g) :
    g.Sound Graph.extraDepth := by
  obtain ⟨text, -, hread⟩ := Option.bind_eq_some_iff.mp (graphOf_eq_ok_iff.mp h)
  exact Graph.sound_of_ofText? hread

/-- A sound graph is read back as it was if and only if it can be written and its tags are kept. -/
theorem exists_bytesOf_iff {key : String} {g : Graph} (h : g.Sound Graph.extraDepth) :
    (∃ bytes, bytesOf key g = .ok bytes ∧ graphOf key bytes = .ok g) ↔
      g.isWritable = true ∧ g.toValue.allTags isKeptTag = true := by
  simp only [bytesOf_eq_ok_iff, graphOf_eq_ok_iff, ← Graph.ofText?_write_iff h]
  constructor
  · rintro ⟨bytes, ⟨hwritable, rfl⟩, hread⟩
    exact ⟨hwritable, ofBytes?_toUTF8 _ ▸ hread⟩
  · rintro ⟨hwritable, hread⟩
    exact ⟨_, ⟨hwritable, rfl⟩, (ofBytes?_toUTF8 _).trans hread⟩

/-- Where the tags of a sound graph are kept, what is written is read back. -/
theorem graphOf_of_bytesOf {key : String} {g : Graph} {bytes : ByteArray} (h : g.Sound Graph.extraDepth)
    (htags : g.toValue.allTags isKeptTag = true) (hwrite : bytesOf key g = .ok bytes) :
    graphOf key bytes = .ok g := by
  obtain ⟨again, hagain, hback⟩ := (@exists_bytesOf_iff key g h).mpr
    ⟨(bytesOf_eq_ok_iff.mp hwrite).1, htags⟩
  obtain rfl := Except.ok.inj (hwrite.symm.trans hagain)
  exact hback

/-- Writing a graph that was read from an object loses nothing, and writing it once more changes
nothing, if and only if the graph can be written and its tags are kept. -/
theorem rewrite_iff {key : String} {bytes : ByteArray} {g : Graph} (h : graphOf key bytes = .ok g) :
    (∃ again, bytesOf key g = .ok again ∧ graphOf key again = .ok g ∧
      (graphOf key again >>= bytesOf key) = .ok again) ↔
      g.isWritable = true ∧ g.toValue.allTags isKeptTag = true := by
  rw [← @exists_bytesOf_iff key g (sound_of_graphOf h)]
  constructor
  · rintro ⟨again, hwrite, hback, -⟩
    exact ⟨again, hwrite, hback⟩
  · rintro ⟨again, hwrite, hback⟩
    refine ⟨again, hwrite, hback, ?_⟩
    rw [hback]
    exact hwrite

/-- A document with a value beside the managed fields whose only key is a mapping of one entry. -/
def pairKeyedText : String := "zed: \x7b\x7ba: b\x7d: c\x7d\n"

/-- The graph of that document, which cannot be written. -/
def pairKeyed : Graph where
  extra := Dict.ofList [("zed", .mapping [(.mapping [(.string "a", .string "b")], .string "c")])]

theorem rewrite_iff_pairKeyed : graphOf "x" pairKeyedText.toUTF8 = .ok pairKeyed ∧
    ¬ ∃ again, bytesOf "x" pairKeyed = .ok again ∧ graphOf "x" again = .ok pairKeyed ∧
      (graphOf "x" again >>= bytesOf "x") = .ok again := by
  have hread : graphOf "x" pairKeyedText.toUTF8 = .ok pairKeyed := by decide +kernel
  refine ⟨hread, fun hkept => ?_⟩
  exact absurd ((rewrite_iff hread).mp hkept).1 (by decide +kernel)

end Fleet

end RouteFleet
