import RouteFleet.Proofs.Store.Listing
import RouteFleet.Proofs.Text.Split
import RouteFleet.SharedMiddlewares

/-! # Reserved identities

Objects that are not routes have keys of their own, which begin with a lead that is reserved for them
(`Store.sharedLead`). An identity that begins so is *reserved* (`RouteId.isReserved`). The object under a
key that can name a file is listed unless its identity is reserved or the root loses its way, and where no
name of a file has a slash in it (`Store.HasPlainNames`) no reserved identity is ever listed
(`Store.mem_list_of_file`, `Store.notMem_list`).

A name with a tag is reserved if the name is, and also if the name is all of the lead but its last
character: then the mark before the tag completes the lead (`RouteId.isReserved_ofTag`). Of the names
that a route may have it is the only one (`RouteId.isReserved_ofTag_of_isName`).
-/

namespace RouteFleet

namespace RouteId

/-! ## Leads -/

/-- Whether an identity begins like the key of an object that is not a route. -/
def isReserved (id : RouteId) : Bool := Text.beginsWith Store.sharedLead id.text

/-- The name that is all of the reserved lead but its last character. -/
def leadName : String := "sys"

theorem isReserved_iff {id : RouteId} : id.isReserved = true ↔ Store.sharedLead.toList <+: id.text.toList :=
  List.isPrefixOf_iff_prefix

/-- The name of an object's file begins with the lead if and only if the object's identity does. -/
theorem beginsWith_fileName (id : RouteId) :
    Text.beginsWith Store.sharedLead id.fileName = id.isReserved := by
  have hchars : id.fileName.toList = id.text.toList ++ '.' :: ['y', 'a', 'm', 'l'] :=
    String.toList_append
  rw [Bool.eq_iff_iff, isReserved_iff, Text.beginsWith, List.isPrefixOf_iff_prefix, hchars]
  exact Text.prefix_append_cons_iff (by decide)

theorem isReserved_ofTag {name : String} {tag : Tag} : (ofTag name tag).isReserved = true ↔
    name = leadName ∨ (mk name).isReserved = true := by
  have hchars : (ofTag name tag).text.toList = name.toList ++ '_' :: tag.text.toList := by
    simp [ofTag]
  have hlead : Store.sharedLead.toList = leadName.toList ++ ['_'] := rfl
  rw [isReserved_iff, isReserved_iff, hchars, hlead,
    Text.concat_prefix_append_cons_iff (by decide), String.toList_inj]

/-! ## Names of routes -/

theorem isReserved_of_isName {name : String} (h : Rule.isName name = true) :
    (mk name).isReserved = false := by
  rw [Bool.eq_false_iff]
  intro hreserved
  rw [Rule.isName, Rule.within, Bool.and_eq_true, List.all_eq_true] at h
  have hmark : '_' ∈ name.toList := (isReserved_iff.mp hreserved).subset (by decide)
  exact absurd (h.2 _ hmark) (by decide)

/-- Of the identities that are made of a route's name and a tag, those with the one name are reserved. -/
theorem isReserved_ofTag_of_isName {name : String} (h : Rule.isName name = true) (tag : Tag) :
    (ofTag name tag).isReserved = true ↔ name = leadName := by
  rw [isReserved_ofTag, isReserved_of_isName h]
  simp

/-- An identity with a route's name is reserved if it has a tag and the name is the one. -/
theorem isReserved_iff_of_isName {id : RouteId} (h : Rule.isName id.name = true) :
    id.isReserved = true ↔ id.name = leadName ∧ id.isLegacy = false := by
  cases hsplit : id.split with
  | none =>
    have hlegacy : id.isLegacy = true := by rw [isLegacy, hsplit]; rfl
    rw [name, hsplit] at h ⊢
    rw [isReserved_of_isName h, hlegacy]
    simp
  | some parts =>
    obtain ⟨name', tag⟩ := parts
    obtain ⟨htext, hname, htag⟩ := eq_of_split hsplit
    obtain rfl : id = ofTag name' ⟨tag, htag⟩ := congrArg mk htext
    rw [name_ofTag hname] at h ⊢
    rw [isReserved_ofTag_of_isName h, isLegacy_ofTag hname, and_iff_left rfl]

theorem isReserved_objectKey : (mk SharedMiddlewares.objectKey).isReserved = true := by decide

end RouteId

namespace Store

/-! ## Names of files -/

/-- Whether no name of a file has a slash in it, as is so in each folder. -/
def HasPlainNames (s : Store) : Prop :=
  ∀ entries, s.content = .ok entries → ∀ file e, entries.get? file = some e → '/' ∉ file.toList

theorem HasPlainNames.write {s : Store} (h : s.HasPlainNames) (key : String) (bytes : ByteArray) :
    (s.write key bytes).2.HasPlainNames := by
  rcases s.write_cases key bytes with ⟨cause, hrefused⟩ | ⟨entries, hentries, hgranted⟩
  · rw [hrefused]
    exact h
  · have hplain := (isReachable_of_write s key bytes (congrArg Prod.fst hgranted)).isPlainKey
    rw [hgranted]
    rintro _ ⟨⟩ file e he
    rcases Dict.cases_of_get?_insert he with ⟨rfl, -⟩ | hbefore
    · exact (@RouteId.isName_fileName ⟨key⟩ hplain).slash
    · exact h entries hentries file e hbefore

theorem HasPlainNames.remove {s : Store} (h : s.HasPlainNames) (key : String) :
    (s.remove key).2.HasPlainNames := by
  rcases s.remove_cases key with ⟨cause, hrefused⟩ | ⟨-, hnone⟩ | ⟨entries, bytes, hentries, -, hgranted⟩
  · rw [hrefused]
    exact h
  · rw [hnone]
    exact h
  · rw [hgranted]
    rintro _ ⟨⟩ file e he
    exact h entries hentries file e (Dict.get?_of_get?_erase he)

/-! ## Listing -/

section Listing

variable {s : Store} {entries : Dict Entry} {ids : List RouteId} {file : String} {e : Entry}
variable {id : RouteId} {bytes : ByteArray}

/-- A name without a slash is the last name of the path that it is, if it is one. -/
theorem eq_of_fileName? {name : String} (h : '/' ∉ file.toList) (hname : Path.fileName? file = some name) :
    name = file := by
  have hsteps : Path.steps file = [file] ∨ Path.steps file = [] := by
    rw [Path.steps, Path.names, Text.pieces_of_notMem h, List.map_singleton, String.ofList_toList,
      List.filter_singleton]
    cases decide (file ≠ "") && decide (file ≠ ".") with
    | true => exact .inl rfl
    | false => exact .inr rfl
  rw [Path.fileName?] at hname
  rcases hsteps with hsteps | hsteps
  · rw [hsteps, List.getLast?_singleton] at hname
    split at hname
    · cases hname
    · exact (Option.some.inj hname).symm
  · rw [hsteps] at hname
    cases hname

/-- What is listed for a name without a slash has a name that begins as the file's does. -/
theorem prefix_of_ofPath? (h : '/' ∉ file.toList) (hid : RouteId.ofPath? file = some id) :
    id.text.toList <+: file.toList := by
  have hfound : Path.fileStem? file = some id.text := by
    rw [RouteId.ofPath?] at hid
    split at hid
    · cases hid
    · rename_i hstem
      rw [hstem, ← Option.some.inj hid]
    · cases hid
  obtain ⟨name, hname, hstem⟩ := Option.map_eq_some_iff.mp hfound
  obtain rfl := eq_of_fileName? h hname
  rw [← hstem, Path.stem]
  split
  · rename_i before ending hsplit
    split
    · exact List.prefix_rfl
    · rw [Text.append_of_splitLast hsplit]
      simp only [String.toList_append, List.append_assoc]
      exact List.prefix_append _ _
  · exact List.prefix_rfl

/-- No reserved identity is listed for a name without a slash. -/
theorem isReserved_of_routeOf? (h : '/' ∉ file.toList) {root : String}
    (hroute : routeOf? root file e = some id) : id.isReserved = false := by
  obtain ⟨-, ⟨-, -, hlead⟩, hid⟩ := routeOf?_iff.mp hroute
  rw [Bool.eq_false_iff] at hlead ⊢
  intro hreserved
  have hbegin := (RouteId.isReserved_iff.mp hreserved).trans (prefix_of_ofPath? h hid)
  exact hlead (List.isPrefixOf_iff_prefix.mpr hbegin)

/-- Where names are plain no reserved identity is listed. -/
theorem notMem_list (hplain : s.HasPlainNames) (hlist : s.list = .ok ids) (h : id.isReserved = true) :
    id ∉ ids := by
  obtain ⟨entries, hentries⟩ := exists_entries_of_list hlist
  intro hmem
  obtain ⟨file, bytes, hfile, hroute⟩ := (mem_list_iff hentries hlist).mp hmem
  have hnot := isReserved_of_routeOf? (hplain entries hentries file _ hfile) hroute
  exact nomatch h.symm.trans hnot

/-- Under a root that does not lose its way, the object under a key that can name a file is listed unless its
identity is reserved. -/
theorem mem_list_of_file (hentries : s.content = .ok entries) (hlist : s.list = .ok ids)
    (hkept : Path.isLost s.root = false) (hkey : IsReachable s.root id.text)
    (hfile : entries.get? id.fileName = some (.file bytes)) (h : id.isReserved = false) : id ∈ ids := by
  rw [mem_list_iff hentries hlist]
  have hlead := (RouteId.beginsWith_fileName id).trans h
  exact ⟨id.fileName, bytes, hfile, routeOf?_fileName hkey hkept hlead bytes⟩

end Listing

end Store

end RouteFleet
