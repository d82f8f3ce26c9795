import RouteFleet.Proofs.Graph.Belongs
import RouteFleet.Proofs.Store.Listing

/-! # Stores in order

A store is in order if beside the shared object it holds nothing but routes' objects: files named for
identities that are made from valid names and tags, each with a graph that belongs to its identity
(`Store.InOrder`). Writing such an object, or the shared one, and removing any keep a store in order,
whether they succeed or not. In a store in order each identity that is listed can be read
(`Store.InOrder.list`).
-/

namespace RouteFleet

/-- An identity that is made from the name of a valid route and a tag can name a file, unless the folder's
path is too long. -/
theorem RouteId.IsMade.isReachable {root : String} {id : RouteId} (h : id.IsMade)
    (hfits : Store.isPathTooLong root id.text = false) : Store.IsReachable root id.text :=
  ⟨h.isPlainKey, h.isTooLong_eq_false, hfits⟩

/-- Whether the bytes are those of a graph that belongs to an identity. -/
def RouteId.Holds (id : RouteId) (bytes : ByteArray) : Prop :=
  ∃ g, Graph.ofBytes? bytes = some g ∧ g.BelongsTo id

/-- Whether something may lie in the folder at `root` under a file's name. -/
def IsObject (root file : String) (e : Entry) : Prop :=
  file = Store.fileName SharedMiddlewares.objectKey ∨
    ∃ id : RouteId, id.IsMade ∧ Store.isPathTooLong root id.text = false ∧ file = id.fileName ∧
      ∃ bytes, e = .file bytes ∧ id.Holds bytes

namespace Store

/-- Whether a store holds nothing but objects of routes and the shared one. -/
def InOrder (s : Store) : Prop :=
  ∃ entries, s.content = .ok entries ∧ ∀ file e, entries.get? file = some e → IsObject s.root file e

/-- Whether some bytes may be written under a key. -/
def MayWrite (key : String) (bytes : ByteArray) : Prop :=
  key = SharedMiddlewares.objectKey ∨ ∃ id : RouteId, id.IsMade ∧ key = id.text ∧ id.Holds bytes

theorem MayWrite.isObject {root key : String} {bytes : ByteArray} (h : MayWrite key bytes)
    (hfits : isPathTooLong root key = false) : IsObject root (fileName key) (.file bytes) := by
  rcases h with rfl | ⟨id, hid, rfl, hholds⟩
  · exact .inl rfl
  · exact .inr ⟨id, hid, hfits, rfl, bytes, rfl, hholds⟩

/-! ## Order is kept -/

namespace InOrder

variable {s : Store}

/-- A store stays in order when an object is written, also if that fails. -/
theorem write (h : s.InOrder) {key : String} {bytes : ByteArray} (hwrite : MayWrite key bytes) :
    (s.write key bytes).2.InOrder := by
  obtain ⟨entries, hentries, hobjects⟩ := h
  rcases s.content_write key bytes hentries with hrefused | ⟨hreach, hgranted⟩
  · exact ⟨entries, hrefused, (s.root_write key bytes).symm ▸ hobjects⟩
  · refine ⟨_, hgranted, fun file e he => ?_⟩
    rw [root_write]
    rcases Dict.cases_of_get?_insert he with ⟨rfl, rfl⟩ | hbefore
    · exact hwrite.isObject hreach.isPathTooLong
    · exact hobjects file e hbefore

/-- A store stays in order when an object is removed, also if that fails. -/
theorem remove (h : s.InOrder) (key : String) : (s.remove key).2.InOrder := by
  obtain ⟨entries, hentries, hobjects⟩ := h
  rcases s.content_remove key hentries with hkept | hgone
  · exact ⟨entries, hkept, (s.root_remove key).symm ▸ hobjects⟩
  · refine ⟨_, hgone, fun file e he => ?_⟩
    rw [root_remove]
    exact hobjects file e (Dict.get?_of_get?_erase he)

/-- What is read is the shared object or holds a graph that belongs to its identity. -/
theorem cases_of_read (h : s.InOrder) {id : RouteId} {bytes : ByteArray}
    (hread : s.read id.text = .ok (some bytes)) :
    id.text = SharedMiddlewares.objectKey ∨ (id.IsMade ∧ id.Holds bytes) := by
  obtain ⟨entries, hentries, hobjects⟩ := h
  rcases hobjects _ _ ((read_eq_ok_iff hentries).mp hread).2 with
    hfile | ⟨id', hid', -, hfile, bytes', he, hholds⟩
  · refine .inl ?_
    exact congrArg RouteId.text (@RouteId.fileName_inj id ⟨SharedMiddlewares.objectKey⟩ hfile)
  · obtain rfl := @RouteId.fileName_inj id id' hfile
    obtain rfl := Entry.file.inj he
    exact .inr ⟨hid', hholds⟩

/-- Each identity that is listed is made from a valid name and a tag, and can be read. -/
theorem list (h : s.InOrder) : ∃ ids, s.list = .ok ids ∧ ∀ id ∈ ids, id.IsMade ∧
    ∃ bytes, s.read id.text = .ok (some bytes) ∧ id.Holds bytes := by
  obtain ⟨entries, hentries, hobjects⟩ := h
  refine ⟨_, list_eq hentries, fun id hid => ?_⟩
  obtain ⟨file, bytes, hfile, hroute⟩ := (mem_list_iff hentries (list_eq hentries)).mp hid
  rcases hobjects file _ hfile with rfl | ⟨id', hid', hfits, rfl, bytes', hbytes, hholds⟩
  · have hshared : Text.beginsWith sharedLead (fileName SharedMiddlewares.objectKey) = true := by decide
    exact nomatch hshared.symm.trans (beginsWith_of_routeOf? hroute)
  · obtain rfl := eq_of_routeOf?_fileName hid'.isPlainKey hroute
    obtain rfl := Entry.file.inj hbytes
    exact ⟨hid', bytes, (read_eq_ok_iff hentries).mpr ⟨hid'.isReachable hfits, hfile⟩, hholds⟩

end InOrder

end Store

end RouteFleet
