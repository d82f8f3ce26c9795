import RouteFleet.Graph.Edit
import RouteFleet.Proofs.Graph.Text
import RouteFleet.Proofs.Text.Split

/-! # Renamed graphs

A renamed reference speaks of the renamed name (`refName_renameRef`), and what a graph defined it defines
under the renamed key (`Dict.contains_renameKeys`). Names that are not made from the old identity stay
(`renameKey_eq_self`).

What a renamed graph holds beside keys and references it holds from the graph that was renamed. So it is
sound, can be written and keeps its tags if that graph is, can be and does (`Graph.Sound.rename`,
`Graph.isWritable_rename`, `Graph.allTags_rename`), and what is then written is read back
(`Fleet.graphOf_bytesOf_rename`).
-/

namespace RouteFleet

open Yaml Value

variable {old new : RouteId}

/-! ## Renamed names -/

/-- A name that is neither the old identity nor goes on from it with a hyphen stays. -/
theorem renameKey_eq_self {key : String} (hkey : key ≠ old.text)
    (hlead : Text.beginsWith (old.text ++ "-") key = false) : renameKey old new key = key := by
  rw [renameKey, if_neg hkey]
  split
  · rename_i rest hrest
    refine if_neg fun hhyphen => ?_
    rw [Text.beginsWith, List.isPrefixOf_iff_prefix] at hhyphen
    rw [Bool.eq_false_iff, Text.beginsWith, ne_eq, List.isPrefixOf_iff_prefix,
      Text.append_of_stripLead hrest, String.toList_append, String.toList_append] at hlead
    exact hlead ((List.prefix_append_right_inj _).mpr hhyphen)
  · rfl

/-- A renamed name has no characters but its own and those that come with the tag. -/
theorem mem_of_mem_renameKey {tag : Tag} (hnew : new = RouteId.ofTag old.text tag) {key : String} {c : Char}
    (h : c ∈ (renameKey old new key).toList) : c ∈ key.toList ∨ c ∈ "_".toList ∨ c ∈ tag.text.toList := by
  have hchars : new.text.toList = old.text.toList ++ "_".toList ++ tag.text.toList := by
    rw [hnew, RouteId.ofTag, String.toList_append, String.toList_append]
  rw [renameKey] at h
  split at h
  · rename_i hkey
    rwa [hchars, ← hkey, List.append_assoc, List.mem_append, List.mem_append] at h
  · split at h
    · rename_i rest hrest
      split at h
      · rw [String.toList_append, hchars] at h
        rw [Text.append_of_stripLead hrest, String.toList_append]
        simp only [List.mem_append] at h ⊢
        rcases h with ((hold | hmark) | htag) | hrest
        · exact .inl (.inl hold)
        · exact .inr (.inl hmark)
        · exact .inr (.inr htag)
        · exact .inl (.inr hrest)
      · exact .inl h
    · exact .inl h

/-- A renamed name has no mark before a provider if it had none. -/
theorem at_notMem_renameKey {tag : Tag} (hnew : new = RouteId.ofTag old.text tag) {key : String}
    (hplain : '@' ∉ key.toList) : '@' ∉ (renameKey old new key).toList := by
  intro hmem
  rcases mem_of_mem_renameKey hnew hmem with hkey | hmark | htag
  · exact hplain hkey
  · exact absurd hmark (by decide)
  · exact absurd htag (RouteId.not_mem_of_isTag (by decide) tag.isTag_text)

/-- A renamed reference speaks of the renamed name. -/
theorem refName_renameRef {tag : Tag} (hnew : new = RouteId.ofTag old.text tag) (ref : String) :
    refName (renameRef old new ref) = renameKey old new (refName ref) := by
  cases hsplit : Text.splitLast '@' ref with
  | some parts =>
    obtain ⟨name, provider⟩ := parts
    have hagain : Text.splitLast '@' (renameKey old new name ++ "@" ++ provider) =
        some (renameKey old new name, provider) :=
      Text.splitLast_append (Text.notMem_of_splitLast hsplit) (renameKey old new name)
    simp only [renameRef, refName, hsplit, hagain]
  | none =>
    have hnone : Text.splitLast '@' (renameKey old new ref) = none := by
      rw [Text.splitLast_eq_none_iff] at hsplit ⊢
      exact at_notMem_renameKey hnew hsplit
    simp only [renameRef, refName, hsplit, hnone]

@[simp] theorem Router.refs_rename (r : Router) :
    (r.rename old new).refs = r.refs.map (renameRef old new) := by
  rw [Router.refs, Router.rename, Router.refs]
  cases r.middlewares <;> rfl

/-! ## Dictionaries with renamed keys -/

/-- What is there is there under its renamed key. -/
theorem Dict.contains_renameKeys {α : Type} {d : Dict α} {k : String} (h : d.contains k = true) :
    (d.renameKeys old new).contains (renameKey old new k) = true := by
  rw [contains_iff_mem_keys] at h ⊢
  obtain ⟨e, he, rfl⟩ := List.mem_map.mp h
  rw [renameKeys, mem_keys_ofList, List.map_map]
  exact List.mem_map_of_mem he

/-- Each value of a dictionary with renamed keys was there before. -/
theorem Dict.mem_values_of_renameKeys {α : Type} {d : Dict α} {v : α}
    (h : v ∈ (d.renameKeys old new).values) : v ∈ d.values := by
  obtain ⟨k, hk⟩ := mem_values_iff.mp h
  obtain ⟨⟨k', v'⟩, hmem, heq⟩ := List.mem_map.mp (mem_of_get?_ofList hk)
  obtain ⟨-, rfl⟩ := Prod.mk.inj heq
  exact mem_values_iff.mpr ⟨k', get?_eq_some_iff.mpr hmem⟩

/-! ## Renamed graphs -/

namespace Graph

variable {g : Graph}

/-- Each router of a renamed graph is a renamed router. -/
theorem exists_router_of_rename {r : Router} (h : r ∈ (g.rename old new).http.routers.values) :
    ∃ r' ∈ g.http.routers.values, r'.rename old new = r :=
  Dict.mem_values_map.mp (Dict.mem_values_of_renameKeys h)

theorem Sound.rename {d : Nat} (h : g.Sound d) (old new : RouteId) : (g.rename old new).Sound d := by
  refine ⟨⟨fun r hr => ?_, fun s hs => ?_, fun m hm => ?_, h.http.extra⟩, h.extra⟩
  · obtain ⟨r', hr', rfl⟩ := exists_router_of_rename hr
    exact ⟨(h.http.routers r' hr').tls, (h.http.routers r' hr').extra⟩
  · exact h.http.services s (Dict.mem_values_of_renameKeys hs)
  · exact h.http.middlewares m (Dict.mem_values_of_renameKeys hm)

theorem isWritable_rename (h : g.isWritable = true) : (g.rename old new).isWritable = true := by
  simp only [isWritable, Bool.and_eq_true, List.all_eq_true] at h ⊢
  obtain ⟨⟨⟨⟨hrouters, hservices⟩, hmiddlewares⟩, hhttp⟩, hextra⟩ := h
  refine ⟨⟨⟨⟨fun r hr => ?_, fun s hs => ?_⟩, fun m hm => ?_⟩, hhttp⟩, hextra⟩
  · obtain ⟨r', hr', rfl⟩ := exists_router_of_rename hr
    exact hrouters r' hr'
  · exact hservices s (Dict.mem_values_of_renameKeys hs)
  · exact hmiddlewares m (Dict.mem_values_of_renameKeys hm)

theorem allTags_rename {d : Nat} {p : String → Bool} (hsound : g.Sound d)
    (h : g.toValue.allTags p = true) : (g.rename old new).toValue.allTags p = true := by
  rw [allTags_toValue hsound] at h
  rw [allTags_toValue (hsound.rename old new)]
  exact fun m hm => h m (Dict.mem_values_of_renameKeys hm)

end Graph

/-- Of a graph that was read from an object and keeps its tags, what is written after it is renamed is
read back. -/
theorem Fleet.graphOf_bytesOf_rename {key key' : String} {bytes again : ByteArray} {g : Graph}
    (hread : graphOf key bytes = .ok g) (htags : g.toValue.allTags isKeptTag = true)
    (hwrite : bytesOf key' (g.rename old new) = .ok again) :
    graphOf key' again = .ok (g.rename old new) := by
  have hsound := sound_of_graphOf hread
  exact graphOf_of_bytesOf (hsound.rename old new) (Graph.allTags_rename hsound htags) hwrite

end RouteFleet
