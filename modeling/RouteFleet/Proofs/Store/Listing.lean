import Mathlib.Data.List.Pairwise
import Mathlib.Data.List.Nodup
import RouteFleet.Proofs.Dict
import RouteFleet.Proofs.Glob.Walk
import RouteFleet.Proofs.Store.Change
import RouteFleet.Proofs.Store.Names

/-! # What a store lists

A store lists an identity for each file that is found and has a name like a route's (`Store.routeOf?_iff`,
`Store.mem_list_iff`); under a root that loses its way none is (`Store.isLost_of_mem_list`). What lies
in the file does not matter, so the list changes only when a file is new or gone
(`Store.isListed_insert`, `Store.isListed_erase`).

The names that are listed are distinct if and only if no two files are listed under identities of one
name (`Store.nodup_names_iff`).
-/

namespace RouteFleet

namespace Store

/-! ## Listed files -/

/-- Whether the folder at `root` holds a file that is listed as `id`. -/
def IsListed (root : String) (entries : Dict Entry) (file : String) (id : RouteId) : Prop :=
  ∃ bytes, entries.get? file = some (.file bytes) ∧ routeOf? root file (.file bytes) = some id

theorem endsWith_fileName (id : RouteId) : Text.endsWith RouteId.fileEnding id.fileName = true := by
  rw [Text.endsWith, RouteId.fileName, String.toList_append, List.isSuffixOf_iff_suffix]
  exact List.suffix_append _ _

section Files

variable {root file : String} {e : Entry} {id id' : RouteId}

/-- A file is listed if it is found, its name has the ending, and the name is not one of an object that is
not a route. -/
theorem routeOf?_iff : routeOf? root file e = some id ↔ e ≠ .folder ∧
    (Glob.canFind root file = true ∧ Text.endsWith RouteId.fileEnding file = true ∧
      Text.beginsWith sharedLead file = false) ∧ RouteId.ofPath? file = some id := by
  cases e with
  | folder => simp [routeOf?]
  | file bytes => simp [routeOf?, and_assoc]

/-- A file that bears the name of a plain key is listed as nothing else. -/
theorem eq_of_routeOf?_fileName (h : isPlainKey id.text = true)
    (hroute : routeOf? root id.fileName e = some id') : id' = id := by
  have hid := (routeOf?_iff.mp hroute).2.2
  rw [RouteId.ofPath?_fileName h] at hid
  exact (Option.some.inj hid).symm

/-- Where the root does not lose its way, a file that can be read is listed unless its name is one of an
object that is not a route. -/
theorem routeOf?_fileName (h : IsReachable root id.text) (hkept : Path.isLost root = false)
    (hlead : Text.beginsWith sharedLead id.fileName = false) (bytes : ByteArray) :
    routeOf? root id.fileName (.file bytes) = some id := by
  have hslash := (RouteId.isName_fileName h.isPlainKey).slash
  have hfits := of_decide_eq_false h.isPathTooLong
  have hid := RouteId.ofPath?_fileName h.isPlainKey
  refine routeOf?_iff.mpr ⟨Entry.noConfusion, ⟨?_, endsWith_fileName id, hlead⟩, hid⟩
  exact (Glob.canFind_iff hslash (Nat.le_of_not_lt hfits)).mpr hkept

/-- What is listed does not begin as an object that is not a route. -/
theorem beginsWith_of_routeOf? (h : routeOf? root file e = some id) :
    Text.beginsWith sharedLead file = false := (routeOf?_iff.mp h).2.1.2.2

/-- What is listed is found, so the root does not lose its way. -/
theorem isLost_of_routeOf? (h : routeOf? root file e = some id) : Path.isLost root = false := by
  have hfound := (routeOf?_iff.mp h).2.1.1
  rw [Glob.canFind, Bool.and_eq_true, Bool.not_eq_true'] at hfound
  exact hfound.1

end Files

section Listed

variable {root : String} {entries : Dict Entry} {file file' : String} {id : RouteId} {bytes : ByteArray}

theorem isListed_insert : IsListed root (entries.insert file (.file bytes)) file' id ↔
    if file' = file then routeOf? root file (.file bytes) = some id else IsListed root entries file' id := by
  rw [IsListed, Dict.get?_insert]
  split
  · rename_i hfile
    subst hfile
    constructor
    · rintro ⟨bytes', -, hroute⟩
      exact hroute
    · exact fun hroute => ⟨bytes, rfl, hroute⟩
  · rfl

theorem isListed_erase : IsListed root (entries.erase file) file' id ↔
    file' ≠ file ∧ IsListed root entries file' id := by
  rw [IsListed, Dict.get?_erase]
  split
  · rename_i hfile
    exact ⟨fun ⟨_, hnone, _⟩ => (nomatch hnone), fun hboth => absurd hfile hboth.1⟩
  · rename_i hfile
    exact (and_iff_right hfile).symm

/-- A file that is replaced is listed as before. -/
theorem isListed_replace {old : ByteArray} (h : entries.get? file = some (.file old)) :
    IsListed root (entries.insert file (.file bytes)) file' id ↔ IsListed root entries file' id := by
  rw [isListed_insert]
  split
  · rename_i hfile
    subst hfile
    constructor
    · exact fun hroute => ⟨old, h, hroute⟩
    · rintro ⟨bytes', -, hroute⟩
      exact hroute
  · rfl

end Listed

/-! ## Lists -/

section Lists

variable {s : Store} {entries : Dict Entry} {ids : List RouteId}

theorem list_eq (h : s.content = .ok entries) :
    s.list = .ok (entries.entries.filterMap fun e => routeOf? s.root e.1 e.2) := by
  rw [list, h]

/-- What a file is listed under does not depend on what it holds. -/
theorem routeOf?_eq (root file : String) (e : Entry) :
    routeOf? root file e = if e.bytes?.isSome then routeOf? root file (.file ByteArray.empty) else none := by
  cases e <;> rfl

/-- The list depends on the folder's path, on the names of the files, and on which entries are folders. -/
theorem list_congr {t : Store} {entries' : Dict Entry} (hroot : s.root = t.root)
    (hs : s.content = .ok entries) (ht : t.content = .ok entries')
    (h : ∀ file, (entries.get? file).map (·.bytes?.isSome) = (entries'.get? file).map (·.bytes?.isSome)) :
    s.list = t.list := by
  have hkind : ∀ d : Dict Entry, d.entries.filterMap (fun e => routeOf? t.root e.1 e.2) =
      (d.map (·.bytes?.isSome)).entries.filterMap
        fun e => if e.2 then routeOf? t.root e.1 (.file ByteArray.empty) else none := by
    intro d
    rw [Dict.map, List.filterMap_map]
    exact List.filterMap_congr fun e _ => routeOf?_eq t.root e.1 e.2
  have hsame : entries.map (·.bytes?.isSome) = entries'.map (·.bytes?.isSome) :=
    Dict.ext_get? fun file => by rw [Dict.get?_map, Dict.get?_map, h]
  rw [list_eq hs, list_eq ht, hroot, hkind, hkind, hsame]

/-- Only a folder at hand is listed. -/
theorem exists_entries_of_list (h : s.list = .ok ids) : ∃ entries, s.content = .ok entries := by
  cases hcontent : s.content with
  | ok entries => exact ⟨entries, rfl⟩
  | error cause =>
    rw [list, hcontent] at h
    exact nomatch h

theorem mem_list_iff (h : s.content = .ok entries) (hlist : s.list = .ok ids) {id : RouteId} :
    id ∈ ids ↔ ∃ file, IsListed s.root entries file id := by
  obtain rfl := Except.ok.inj ((list_eq h).symm.trans hlist)
  rw [List.mem_filterMap]
  constructor
  · rintro ⟨⟨file, e⟩, hmem, hroute⟩
    cases e with
    | folder => exact nomatch hroute
    | file bytes => exact ⟨file, bytes, Dict.get?_eq_some_iff.mpr hmem, hroute⟩
  · rintro ⟨file, bytes, hfile, hroute⟩
    exact ⟨(file, .file bytes), Dict.get?_eq_some_iff.mp hfile, hroute⟩

/-- Under a root that loses its way nothing is listed. -/
theorem isLost_of_mem_list (hlist : s.list = .ok ids) {id : RouteId} (h : id ∈ ids) :
    Path.isLost s.root = false := by
  obtain ⟨entries, hentries⟩ := exists_entries_of_list hlist
  obtain ⟨file, bytes, -, hroute⟩ := (mem_list_iff hentries hlist).mp h
  exact isLost_of_routeOf? hroute

/-- Whether no two files of the folder at `root` are listed under identities of one name. -/
def NamesApart (root : String) (entries : Dict Entry) : Prop := ∀ file file' id id',
  IsListed root entries file id → IsListed root entries file' id' → id.name = id'.name → file = file'

/-- The names that are listed are distinct if and only if no two files have one. -/
theorem nodup_names_iff (h : s.content = .ok entries) (hlist : s.list = .ok ids) :
    (ids.map RouteId.name).Nodup ↔ NamesApart s.root entries := by
  obtain rfl := Except.ok.inj ((list_eq h).symm.trans hlist)
  rw [List.Nodup, List.pairwise_map, List.pairwise_filterMap]
  constructor
  · intro hpairwise file file' id id' hid hid' hname
    obtain ⟨bytes, hfile, hroute⟩ := hid
    obtain ⟨bytes', hfile', hroute'⟩ := hid'
    by_contra hne
    have hsymm : Std.Symm fun e e' : String × Entry => ∀ b, routeOf? s.root e.1 e.2 = some b →
        ∀ b', routeOf? s.root e'.1 e'.2 = some b' → b.name ≠ b'.name :=
      ⟨fun e e' h b hb b' hb' => (h b' hb' b hb).symm⟩
    have hfiles : (file, Entry.file bytes) ≠ (file', Entry.file bytes') := fun heq =>
      hne (congrArg Prod.fst heq)
    exact hpairwise.forall (Dict.get?_eq_some_iff.mp hfile) (Dict.get?_eq_some_iff.mp hfile') hfiles
      id hroute id' hroute' hname
  · intro hapart
    refine List.Nodup.pairwise_of_forall_ne (List.Nodup.of_map _ entries.nodup_keys) ?_
    rintro ⟨file, e⟩ hmem ⟨file', e'⟩ hmem' hne id hroute id' hroute' hname
    cases e with
    | folder => exact nomatch hroute
    | file bytes =>
      cases e' with
      | folder => exact nomatch hroute'
      | file bytes' =>
        have hget := Dict.get?_eq_some_iff.mpr hmem
        have hget' := Dict.get?_eq_some_iff.mpr hmem'
        obtain rfl := hapart file file' id id' ⟨bytes, hget, hroute⟩ ⟨bytes', hget', hroute'⟩ hname
        exact hne (congrArg (Prod.mk file) (Option.some.inj (hget.symm.trans hget')))

end Lists

/-! ## Names that stay apart -/

namespace NamesApart

variable {root : String} {entries entries' : Dict Entry} {file : String} {bytes : ByteArray}

/-- Names are apart where no more is listed. -/
theorem mono (h : NamesApart root entries)
    (hless : ∀ file id, IsListed root entries' file id → IsListed root entries file id) :
    NamesApart root entries' :=
  fun file file' id id' hid hid' => h file file' id id' (hless file id hid) (hless file' id' hid')

theorem erase (h : NamesApart root entries) (file : String) : NamesApart root (entries.erase file) :=
  h.mono fun _ _ hid => (isListed_erase.mp hid).2

/-- Names are apart where a file is written whose name no other file has. -/
theorem insert (h : NamesApart root entries)
    (hnew : ∀ id, routeOf? root file (.file bytes) = some id →
      ∀ file' id', file' ≠ file → IsListed root entries file' id' → id'.name ≠ id.name) :
    NamesApart root (entries.insert file (.file bytes)) := by
  intro file₁ file₂ id₁ id₂ h₁ h₂ hname
  rw [isListed_insert] at h₁ h₂
  by_cases hfile₁ : file₁ = file
  · by_cases hfile₂ : file₂ = file
    · exact hfile₁.trans hfile₂.symm
    · rw [if_pos hfile₁] at h₁
      rw [if_neg hfile₂] at h₂
      exact absurd hname.symm (hnew id₁ h₁ file₂ id₂ hfile₂ h₂)
  · rw [if_neg hfile₁] at h₁
    by_cases hfile₂ : file₂ = file
    · rw [if_pos hfile₂] at h₂
      exact absurd hname (hnew id₂ h₂ file₁ id₁ hfile₁ h₁)
    · rw [if_neg hfile₂] at h₂
      exact h file₁ file₂ id₁ id₂ h₁ h₂ hname

theorem rewrite (h : NamesApart root entries) {old : ByteArray}
    (hold : entries.get? file = some (.file old)) : NamesApart root (entries.insert file (.file bytes)) :=
  h.mono fun _ _ hid => (isListed_replace hold).mp hid

theorem insert_unlisted (h : NamesApart root entries) (hnone : routeOf? root file (.file bytes) = none) :
    NamesApart root (entries.insert file (.file bytes)) :=
  h.insert fun _ hid => nomatch hnone.symm.trans hid

theorem insert_new (h : NamesApart root entries) {id : RouteId} (hkey : isPlainKey id.text = true)
    (hunused : ∀ file' id', IsListed root entries file' id' → id'.name ≠ id.name) :
    NamesApart root (entries.insert id.fileName (.file bytes)) := by
  refine h.insert fun id' hid file' id'' _ hlisted => ?_
  rw [eq_of_routeOf?_fileName hkey hid]
  exact hunused file' id'' hlisted

end NamesApart

end Store

end RouteFleet
