import RouteFleet.Proofs.Store.Change
import RouteFleet.Proofs.Store.Names

/-! # Keys, paths and identities

A key is refused in every use of it (`Store.Refuses`), or its path leads to the one child of the store's
folder that is named for it (`Store.IsPathOf`), whatever the folder's path looks like: with or without a
slash at its end, from the top or from here, with empty names, dots and double dots in it.

From the path the key is found again, so two keys never share a path, and an identity with a tag comes
apart at its last underscore, whatever its name contains. So keys, paths and identities correspond
(`Store.key_path_identity`).
-/

namespace RouteFleet

/-! ## Tags -/

namespace RouteId

/-- Eight digits that are hexadecimal and in lower case are a tag. -/
theorem isTag_of_chars {tag : String} (hlength : tag.toList.length = 8)
    (h : ∀ c ∈ tag.toList, c ∈ "0123456789abcdef".toList) : isTag tag = true := by
  have hdigits : "0123456789abcdef".toList.all isTagDigit = true := by decide
  rw [isTag, Bool.and_eq_true, beq_iff_eq, List.all_eq_true]
  exact ⟨hlength, fun c hc => List.all_eq_true.mp hdigits c (h c hc)⟩

theorem split_mk {name tag : String} (hname : name ≠ "") (htag : isTag tag = true) :
    (mk (name ++ "_" ++ tag)).split = some (name, tag) :=
  split_ofTag hname ⟨tag, htag⟩

/-- An identity is all name, or its name and its tag are put together to it. -/
theorem legacy_or_tagged (id : RouteId) :
    (id.isLegacy = true ∧ id.name = id.text ∧ id.tag? = none) ∨
      (id.isLegacy = false ∧ ∃ tag, id.tag? = some tag ∧ id.text = id.name ++ "_" ++ tag) := by
  rw [isLegacy, name, tag?]
  cases hsplit : id.split with
  | none => exact .inl ⟨rfl, rfl, rfl⟩
  | some parts =>
    obtain ⟨name, tag⟩ := parts
    exact .inr ⟨rfl, tag, rfl, (eq_of_split hsplit).1⟩

end RouteId

/-! ## Keys -/

namespace Store

/-- Whether a store does nothing under a key but refuse it. -/
structure Refuses (s : Store) (key : String) : Prop where
  read : s.read key = .error (.invalidKey key)
  isThere : s.isThere key = .error (.invalidKey key)
  write : ∀ bytes, (s.write key bytes).1 = .error (.invalidKey key) ∧
    (s.write key bytes).2.root = s.root ∧ (s.write key bytes).2.content = s.content
  remove : (s.remove key).1 = .error (.invalidKey key) ∧
    (s.remove key).2.root = s.root ∧ (s.remove key).2.content = s.content

/-- Whether a path is the one of a key's object: it leads to the child of the folder at `root` that is
named for the key, and is read as the key. -/
structure IsPathOf (root key path : String) : Prop where
  isAbsolute : Path.isAbsolute path = Path.isAbsolute root
  steps : Path.steps path = Path.steps root ++ [key ++ ".yaml"]
  isName : Path.IsName (key ++ ".yaml")
  located : ∀ (fs : FileSystem) (place found : Place), fs.locate root = .ok place →
    fs.locate path = .ok found → found = place ++ [key ++ ".yaml"]
  ofPath? : RouteId.ofPath? path = some ⟨key⟩

theorem refuses_of_path? {s : Store} {key : String} (h : path? s.root key = .error (.invalidKey key)) :
    s.Refuses key := by
  have hfind : s.find key = .error (.invalidKey key) := by
    rw [find, h]
    rfl
  constructor
  · rw [Store.read, hfind]
    rfl
  · rw [Store.isThere, hfind]
    rfl
  · intro bytes
    rw [Store.write, h]
    exact ⟨rfl, rfl, rfl⟩
  · rw [Store.remove, h]
    exact ⟨rfl, rfl, rfl⟩

section PlainKeys

variable {key : String}

theorem isPathOf (h : isPlainKey key = true) (root : String) :
    IsPathOf root key (Path.join root (fileName key)) := by
  have hname : Path.IsName (fileName key) := @RouteId.isName_fileName ⟨key⟩ h
  refine ⟨Path.isAbsolute_join root hname.slash, Path.steps_join root hname, hname, ?_, ?_⟩
  · intro fs place found hroot hfound
    exact FileSystem.eq_of_step hname (FileSystem.locate_join hname hroot hfound)
  · rw [RouteId.ofPath?_join root hname]
    exact @RouteId.ofPath?_fileName ⟨key⟩ h

/-- The path of a key is the path of no other, also in another spelling. -/
theorem IsPathOf.inj {root key key' path path' : String} (h : IsPathOf root key path)
    (h' : IsPathOf root key' path') (hsteps : Path.steps path = Path.steps path') : key = key' := by
  rw [h.steps, h'.steps, List.append_cancel_left_eq, List.singleton_inj] at hsteps
  exact RouteId.mk.inj (@RouteId.fileName_inj ⟨key⟩ ⟨key'⟩ hsteps)

theorem path?_cases (root key : String) : path? root key = .error (.invalidKey key) ∨
    ∃ path, path? root key = .ok path ∧ IsPathOf root key path := by
  rw [path?]
  cases hplain : isPlainKey key with
  | false => exact .inl rfl
  | true => exact .inr ⟨_, rfl, isPathOf hplain root⟩

theorem isPathOf_of_path? {root path : String} (h : path? root key = .ok path) :
    IsPathOf root key path := by
  rcases path?_cases root key with hrefused | ⟨path', hpath', hof⟩
  · cases hrefused.symm.trans h
  · exact Except.ok.inj (hpath'.symm.trans h) ▸ hof

end PlainKeys

/-- Keys, paths and identities correspond. A key that is refused is refused in every use of it, and
changes nothing. Any other has a path of its own, which leads to the one child of the folder that is named
for the key and is read as the key. What is made of a name and a tag comes apart into them, whatever the
name contains, and any identity is all name or comes apart into its name and its tag. -/
theorem key_path_identity :
    (∀ root key,
      (path? root key = .error (.invalidKey key) ∧ ∀ s : Store, s.root = root → s.Refuses key) ∨
        ∃ path, path? root key = .ok path ∧ IsPathOf root key path) ∧
    (∀ root key key' path path', path? root key = .ok path → path? root key' = .ok path' →
      Path.steps path = Path.steps path' → key = key') ∧
    (∀ name tag : String, name ≠ "" → tag.toList.length = 8 →
      (∀ c ∈ tag.toList, c ∈ "0123456789abcdef".toList) →
      let id := RouteId.mk (name ++ "_" ++ tag)
      id.name = name ∧ id.tag? = some tag ∧ id.isLegacy = false) ∧
    (∀ id : RouteId, (id.isLegacy = true ∧ id.name = id.text ∧ id.tag? = none) ∨
      (id.isLegacy = false ∧ ∃ tag, id.tag? = some tag ∧ id.text = id.name ++ "_" ++ tag)) := by
  refine ⟨?_, ?_, ?_, RouteId.legacy_or_tagged⟩
  · intro root key
    rcases path?_cases root key with hrefused | hpath
    · exact .inl ⟨hrefused, fun s hroot => refuses_of_path? (hroot ▸ hrefused)⟩
    · exact .inr hpath
  · intro root key key' path path' h h' hsteps
    exact (isPathOf_of_path? h).inj (isPathOf_of_path? h') hsteps
  · intro name tag hname hlength hchars id
    have hsplit : id.split = some (name, tag) :=
      RouteId.split_mk hname (RouteId.isTag_of_chars hlength hchars)
    rw [RouteId.name, RouteId.tag?, RouteId.isLegacy, hsplit]
    exact ⟨rfl, rfl, rfl⟩

/-- A key that goes up is refused, keys with dots at either end have paths of their own, and a name that
ends as with a tag stays whole. -/
theorem key_path_identity_dotted :
    Refuses ⟨"conf/", .ok Dict.empty, {}⟩ "a/../b" ∧
    Path.steps "conf/.a.yaml" ≠ Path.steps "conf/a..yaml" ∧
    (RouteId.mk ("_0a1b2c3d" ++ "_" ++ "00000000")).name = "_0a1b2c3d" := by
  refine ⟨?_, ?_, ?_⟩
  · rcases key_path_identity.1 "conf/" "a/../b" with ⟨-, hrefuses⟩ | ⟨path, hpath, -⟩
    · exact hrefuses _ rfl
    · cases (show path? "conf/" "a/../b" = .error (.invalidKey "a/../b") from rfl).symm.trans hpath
  · intro hsteps
    have hsame := key_path_identity.2.1 "conf" ".a" "a." "conf/.a.yaml" "conf/a..yaml" rfl rfl
      hsteps
    exact absurd hsame (by decide)
  · have hchars : ("00000000".toList.all fun c => "0123456789abcdef".toList.contains c) = true := by
      decide
    exact (key_path_identity.2.2.1 "_0a1b2c3d" "00000000" (by decide) (by decide)
      fun c hc => List.contains_iff_mem.mp (List.all_eq_true.mp hchars c hc)).1

end Store

end RouteFleet
