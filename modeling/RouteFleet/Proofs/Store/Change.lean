import RouteFleet.Store.Basic

/-! # What the operations of a store come to

Reading finds what lies in the folder under a key that can name a file there (`Store.IsReachable`,
`Store.find_eq_ok_iff`). A write or a removal that is refused leaves the folder as it was; one that is
granted puts there, or takes away, the one file and nothing else (`Store.write_cases`,
`Store.remove_cases`). Where the file is known only the system can refuse (`Store.write_eq`,
`Store.remove_eq`).

Changes that follow one another lead through several stores (`Store.moments`), which is what somebody
sees who looks into the folder meanwhile.
-/

namespace RouteFleet

namespace Store

/-! ## Stores after a call -/

/-- The store after a write was asked for, with the folder as it was. -/
def afterWrite (s : Store) : Store := { s with refusals := s.refusals.afterWrite }

/-- The store after a removal was asked for, with the folder as it was. -/
def afterRemoval (s : Store) : Store := { s with refusals := s.refusals.afterRemoval }

/-- The store with other entries in its folder. -/
def withEntries (s : Store) (entries : Dict Entry) : Store := { s with content := .ok entries }

section Fields

variable (s : Store) (entries : Dict Entry)

@[simp] theorem content_afterWrite : s.afterWrite.content = s.content := rfl

@[simp] theorem content_afterRemoval : s.afterRemoval.content = s.content := rfl

@[simp] theorem content_withEntries : (s.withEntries entries).content = .ok entries := rfl

@[simp] theorem root_afterWrite : s.afterWrite.root = s.root := rfl

@[simp] theorem root_afterRemoval : s.afterRemoval.root = s.root := rfl

@[simp] theorem root_withEntries : (s.withEntries entries).root = s.root := rfl

@[simp] theorem writes_afterWrite (n : Nat) :
    s.afterWrite.refusals.writes n = s.refusals.writes (n + 1) := rfl

@[simp] theorem removals_afterWrite : s.afterWrite.refusals.removals = s.refusals.removals := rfl

@[simp] theorem writes_afterRemoval : s.afterRemoval.refusals.writes = s.refusals.writes := rfl

@[simp] theorem removals_afterRemoval (n : Nat) :
    s.afterRemoval.refusals.removals n = s.refusals.removals (n + 1) := rfl

@[simp] theorem refusals_withEntries : (s.withEntries entries).refusals = s.refusals := rfl

end Fields

/-! ## Reading -/

/-- Whether a key can name a file in the folder at `root`. -/
structure IsReachable (root key : String) : Prop where
  isPlainKey : isPlainKey key = true
  isTooLong : isTooLong key = false
  isPathTooLong : isPathTooLong root key = false

section Reading

variable {s : Store} {key : String} {entries : Dict Entry}

theorem find_eq_ok_iff {found : Option Entry} : s.find key = .ok found ↔
    isPlainKey key = true ∧ isPathTooLong s.root key = false ∧
      ((s.content = .error .notFound ∧ found = none) ∨
        (isTooLong key = false ∧ ∃ entries, s.content = .ok entries ∧
          entries.get? (fileName key) = found)) := by
  rw [find, path?]
  by_cases hplain : isPlainKey key = true
  · rw [if_pos hplain, and_iff_right hplain]
    simp only [bind, Except.bind]
    by_cases hpath : isPathTooLong s.root key = true
    · simp [hpath]
    rw [if_neg hpath, and_iff_right (Bool.eq_false_iff.mpr hpath)]
    cases hcontent : s.content with
    | error cause => cases cause <;> simp [eq_comm (a := none)]
    | ok entries => by_cases hlong : isTooLong key = true <;> simp [hlong]
  · rw [if_neg hplain]
    simp [bind, Except.bind, hplain]

/-- In a folder at hand, exactly the reachable keys can be looked up. -/
theorem find_eq_ok_iff_of_content (h : s.content = .ok entries) {found : Option Entry} :
    s.find key = .ok found ↔ IsReachable s.root key ∧ entries.get? (fileName key) = found := by
  rw [find_eq_ok_iff, h]
  constructor
  · rintro ⟨hplain, hpath, ⟨hnone, -⟩ | ⟨hshort, entries', hentries, hfound⟩⟩
    · cases hnone
    · obtain rfl := Except.ok.inj hentries
      exact ⟨⟨hplain, hshort, hpath⟩, hfound⟩
  · rintro ⟨⟨hplain, hshort, hpath⟩, hfound⟩
    exact ⟨hplain, hpath, .inr ⟨hshort, entries, rfl, hfound⟩⟩

/-- What is read is the content of the file that is found. -/
theorem read_iff_find {found : Option ByteArray} :
    s.read key = .ok found ↔ s.find key = .ok (found.map .file) := by
  rw [read]
  cases s.find key with
  | error e => simp [bind, Except.bind]
  | ok e =>
    match e with
    | none => cases found <;> simp [bind, Except.bind]
    | some (.file bytes) => cases found <;> simp [bind, Except.bind]
    | some .folder => cases found <;> simp [bind, Except.bind]

theorem read_eq_ok_iff (h : s.content = .ok entries) {bytes : ByteArray} :
    s.read key = .ok (some bytes) ↔
      IsReachable s.root key ∧ entries.get? (fileName key) = some (.file bytes) :=
  read_iff_find.trans (find_eq_ok_iff_of_content h)

theorem read_eq_none_iff (h : s.content = .ok entries) :
    s.read key = .ok none ↔ IsReachable s.root key ∧ entries.get? (fileName key) = none :=
  read_iff_find.trans (find_eq_ok_iff_of_content h)

theorem isThere_eq_false_iff (h : s.content = .ok entries) :
    s.isThere key = .ok false ↔ IsReachable s.root key ∧ entries.get? (fileName key) = none := by
  rw [← find_eq_ok_iff_of_content h, isThere]
  cases s.find key with
  | error e => simp [Except.map]
  | ok found => cases found <;> simp [Except.map]

/-- What is read without failing depends on the folder's path and the one file. -/
theorem read_eq_ok_congr {t : Store} {entries' : Dict Entry} (hroot : s.root = t.root)
    (hs : s.content = .ok entries) (ht : t.content = .ok entries')
    (h : entries.get? (fileName key) = entries'.get? (fileName key)) {found : Option ByteArray} : s.read key = .ok found ↔ t.read key = .ok found := by
  rw [read_iff_find, read_iff_find, find_eq_ok_iff_of_content hs, find_eq_ok_iff_of_content ht, hroot, h]

/-- Only in a folder at hand something can be read. -/
theorem exists_entries_of_read {bytes : ByteArray} (h : s.read key = .ok (some bytes)) :
    ∃ entries, s.content = .ok entries := by
  rcases (find_eq_ok_iff.mp (read_iff_find.mp h)).2.2 with ⟨-, hnone⟩ | ⟨-, entries, hentries, -⟩
  · exact nomatch hnone
  · exact ⟨entries, hentries⟩

end Reading

/-! ## Writing and removing -/

section Changing

variable (s : Store) (key : String) (bytes : ByteArray) {entries : Dict Entry}

/-- A write is refused and changes nothing in the folder, or it puts the file there. -/
theorem write_cases : (∃ cause, s.write key bytes = (.error cause, s.afterWrite)) ∨
    ∃ entries, s.content = .ok entries ∧ s.write key bytes =
      (.ok (), s.afterWrite.withEntries (entries.insert (fileName key) (.file bytes))) := by
  rw [write]
  split
  · exact .inl ⟨_, rfl⟩
  split
  · exact .inl ⟨_, rfl⟩
  split
  · exact .inl ⟨_, rfl⟩
  rename_i entries hentries
  split
  · exact .inl ⟨_, rfl⟩
  split
  · exact .inl ⟨_, rfl⟩
  · exact .inr ⟨entries, hentries, rfl⟩

/-- Only under a key that can name a file something is written. -/
theorem isReachable_of_write (h : (s.write key bytes).1 = .ok ()) : IsReachable s.root key := by
  rw [write] at h
  split at h
  · exact nomatch h
  rename_i path hpath
  split at h
  · exact nomatch h
  split at h
  · exact nomatch h
  split at h
  · exact nomatch h
  rename_i hfits
  rw [Bool.or_eq_true, not_or, Bool.not_eq_true, Bool.not_eq_true] at hfits
  refine ⟨?_, hfits.1, hfits.2⟩
  rw [path?] at hpath
  split at hpath
  · assumption
  · exact nomatch hpath

/-- A removal is refused or finds nothing, and changes nothing in the folder, or it takes the file
away. -/
theorem remove_cases : (∃ cause, s.remove key = (.error cause, s.afterRemoval)) ∨
    ((∀ entries, s.content = .ok entries → entries.get? (fileName key) = none) ∧
      s.remove key = (.ok false, s.afterRemoval)) ∨
    ∃ entries bytes, s.content = .ok entries ∧
      entries.get? (fileName key) = some (.file bytes) ∧
      s.remove key = (.ok true, s.afterRemoval.withEntries (entries.erase (fileName key))) := by
  rw [remove]
  split
  · exact .inl ⟨_, rfl⟩
  split
  · exact .inl ⟨_, rfl⟩
  split
  · exact .inl ⟨_, rfl⟩
  split
  · rename_i hfolder
    refine .inr (.inl ⟨fun entries hentries => ?_, rfl⟩)
    exact nomatch hfolder.symm.trans hentries
  · exact .inl ⟨_, rfl⟩
  rename_i entries hentries
  split
  · exact .inl ⟨_, rfl⟩
  split
  · rename_i hnone
    refine .inr (.inl ⟨fun entries' hentries' => ?_, rfl⟩)
    obtain rfl := Except.ok.inj (hentries.symm.trans hentries')
    exact hnone
  · exact .inl ⟨_, rfl⟩
  · rename_i bytes hbytes
    exact .inr (.inr ⟨entries, bytes, hentries, hbytes, rfl⟩)

/-- What lies in a folder at hand after a write was asked for. -/
theorem content_write (h : s.content = .ok entries) : (s.write key bytes).2.content = .ok entries ∨
    IsReachable s.root key ∧
      (s.write key bytes).2.content = .ok (entries.insert (fileName key) (.file bytes)) := by
  rcases s.write_cases key bytes with ⟨cause, hrefused⟩ | ⟨entries', hentries', hgranted⟩
  · rw [hrefused]
    exact .inl h
  · obtain rfl := Except.ok.inj (h.symm.trans hentries')
    refine .inr ⟨s.isReachable_of_write key bytes (congrArg Prod.fst hgranted), ?_⟩
    rw [hgranted]
    rfl

/-- What lies in a folder at hand after a removal was asked for. -/
theorem content_remove (h : s.content = .ok entries) : (s.remove key).2.content = .ok entries ∨
    (s.remove key).2.content = .ok (entries.erase (fileName key)) := by
  rcases s.remove_cases key with
    ⟨cause, hrefused⟩ | ⟨-, hnone⟩ | ⟨entries', bytes, hentries', -, hgranted⟩
  · rw [hrefused]
    exact .inl h
  · rw [hnone]
    exact .inl h
  · obtain rfl := Except.ok.inj (h.symm.trans hentries')
    rw [hgranted]
    exact .inr rfl

/-- The folder is the same after each call. -/
theorem root_write : (s.write key bytes).2.root = s.root := by
  rcases s.write_cases key bytes with ⟨cause, hrefused⟩ | ⟨entries, -, hgranted⟩
  · rw [hrefused]
    rfl
  · rw [hgranted]
    rfl

theorem root_remove : (s.remove key).2.root = s.root := by
  rcases s.remove_cases key with ⟨cause, hrefused⟩ | ⟨-, hnone⟩ | ⟨entries, bytes, -, -, hgranted⟩
  · rw [hrefused]
    rfl
  · rw [hnone]
    rfl
  · rw [hgranted]
    rfl

variable {s key}

/-- A file that may be written is, unless the system refuses. -/
theorem write_eq (h : s.content = .ok entries) (hkey : IsReachable s.root key)
    (hfile : entries.get? (fileName key) ≠ some .folder) : s.write key bytes =
      if s.refusals.writes 0 then
        (.error (.io (Path.join s.root (fileName key)) .diskFull), s.afterWrite)
      else (.ok (), s.afterWrite.withEntries (entries.insert (fileName key) (.file bytes))) := by
  obtain ⟨root, content, refusals⟩ := s
  obtain rfl : content = .ok entries := h
  rw [write, path?, if_pos hkey.isPlainKey]
  simp only [hkey.isTooLong, hkey.isPathTooLong, Bool.or_false, Bool.false_eq_true, if_false]
  split
  · rfl
  · rfl

variable {bytes}

/-- A file that is there is removed, unless the system refuses. -/
theorem remove_eq (h : s.content = .ok entries) (hkey : IsReachable s.root key)
    (hfile : entries.get? (fileName key) = some (.file bytes)) : s.remove key =
      if s.refusals.removals 0 then
        (.error (.io (Path.join s.root (fileName key)) .diskFull), s.afterRemoval)
      else (.ok true, s.afterRemoval.withEntries (entries.erase (fileName key))) := by
  obtain ⟨root, content, refusals⟩ := s
  obtain rfl : content = .ok entries := h
  rw [remove, path?, if_pos hkey.isPlainKey]
  simp only [hkey.isTooLong, hkey.isPathTooLong, hfile, Bool.false_eq_true, if_false]
  rfl

end Changing

/-! ## Changes that follow one another -/

/-- A change to one object. -/
inductive Change where
  | write (key : String) (bytes : ByteArray)
  | remove (key : String)

/-- Makes a change, unless it is refused. -/
def change : Change → Store → Except StoreError Unit × Store
  | .write key bytes, s => s.write key bytes
  | .remove key, s => ((s.remove key).1.map fun _ => (), (s.remove key).2)

/-- Makes changes in turn, until one is refused. -/
def changeAll : List Change → Store → Except StoreError Unit × Store
  | [], s => (.ok (), s)
  | c :: rest, s => match s.change c with
    | (.ok (), next) => changeAll rest next
    | (.error cause, next) => (.error cause, next)

/-- The stores that some changes lead through, until one is refused: the one before the first of them,
and the one after each. -/
def moments : List Change → Store → List Store
  | [], s => [s]
  | c :: rest, s => s :: match s.change c with
    | (.ok (), next) => moments rest next
    | (.error _, next) => [next]

section Moments

theorem change_write (s : Store) (key : String) (bytes : ByteArray) :
    s.change (.write key bytes) = s.write key bytes := rfl

theorem change_remove_ok {s next : Store} {key : String} {found : Bool}
    (h : s.remove key = (.ok found, next)) : s.change (.remove key) = (.ok (), next) := by
  rw [change, h]
  rfl

theorem change_remove_error {s next : Store} {key : String} {cause : StoreError}
    (h : s.remove key = (.error cause, next)) : s.change (.remove key) = (.error cause, next) := by
  rw [change, h]
  rfl

variable {s next : Store} {c : Change} {cause : StoreError} (rest : List Change)

theorem changeAll_cons_ok (h : s.change c = (.ok (), next)) :
    changeAll (c :: rest) s = changeAll rest next := by
  rw [changeAll, h]

theorem changeAll_cons_error (h : s.change c = (.error cause, next)) :
    changeAll (c :: rest) s = (.error cause, next) := by
  rw [changeAll, h]

theorem moments_cons_ok (h : s.change c = (.ok (), next)) :
    moments (c :: rest) s = s :: moments rest next := by
  rw [moments, h]

theorem moments_cons_error (h : s.change c = (.error cause, next)) :
    moments (c :: rest) s = [s, next] := by
  rw [moments, h]

end Moments

/-- The last moment is when the changes are made. -/
theorem getLast?_moments (changes : List Change) (s : Store) :
    (moments changes s).getLast? = some (changeAll changes s).2 := by
  induction changes generalizing s with
  | nil => rfl
  | cons c rest ih =>
    rw [moments, changeAll, List.getLast?_cons]
    split
    · rw [ih]
      rfl
    · rfl

/-- What lies where the object with an identity belongs, in a folder that is at hand. -/
def file? (s : Store) (id : RouteId) : Option Entry :=
  match s.content with
  | .ok entries => entries.get? id.fileName
  | .error _ => none

theorem file?_eq {s : Store} {entries : Dict Entry} (h : s.content = .ok entries) (id : RouteId) :
    s.file? id = entries.get? id.fileName := by
  rw [file?, h]

theorem file?_congr {s t : Store} (h : s.content = t.content) (id : RouteId) : s.file? id = t.file? id := by
  rw [file?, file?, h]

end Store

end RouteFleet
