import RouteFleet.Proofs.Dict
import RouteFleet.Proofs.File.Path
import RouteFleet.Proofs.Text.Bytes

/-! # What lies where a path leads

Each question about a path is answered by what lies at the place that the path leads to
(`FileSystem.find_eq`). A folder has the names by which one step leads to something
(`FileSystem.mem_keys_children_iff`), and where all names are such as a file system gives, one step by such
a name leads to what has it (`FileSystem.step_of_isName`). A text that was written to a file is read back
from it (`FileSystem.readText_write`).
-/

namespace RouteFleet.FileSystem

variable {fs : FileSystem} {path name : String} {here : Place}

/-! ## Questions about a path -/

theorem find_eq (h : fs.locate path = .ok here) : fs.find path = match fs.entryAt here with
    | some entry => .ok entry
    | none => .error .notFound := by
  rw [find, h]
  rfl

theorem isFolder_iff (h : fs.locate path = .ok here) :
    fs.isFolder path = true ↔ fs.entryAt here = some .folder := by
  rw [isFolder, find_eq h]
  cases fs.entryAt here with
  | none => simp
  | some entry => cases entry <;> simp

theorem isThere_iff (h : fs.locate path = .ok here) :
    fs.isThere path = true ↔ ∃ entry, fs.entryAt here = some entry := by
  rw [isThere, find_eq h]
  cases fs.entryAt here with
  | none => simp [Except.toBool]
  | some entry => simp [Except.toBool]

theorem isFile_iff (h : fs.locate path = .ok here) :
    fs.isFile path = true ↔ ∃ bytes, fs.entryAt here = some (.file bytes) := by
  rw [isFile, find_eq h]
  cases fs.entryAt here with
  | none => simp
  | some entry => cases entry <;> simp

theorem isFile_eq_false_of_locate {cause : FileError} (h : fs.locate path = .error cause) :
    fs.isFile path = false := by
  rw [isFile, find, h]
  rfl

/-! ## What lies in a folder -/

/-- Whether all that lies in a tree has names such as a file system gives. -/
def HasNames (fs : FileSystem) : Prop := ∀ e ∈ fs.entries, ∀ name ∈ e.1,
  Path.IsName name ∧ name.utf8ByteSize ≤ nameLimit

instance : DecidablePred HasNames := fun fs =>
  inferInstanceAs (Decidable (∀ e ∈ fs.entries, ∀ name ∈ e.1,
    Path.IsName name ∧ name.utf8ByteSize ≤ nameLimit))

theorem nameIn_eq_some_iff {place other : Place} :
    nameIn place other = some name ↔ other = place ++ [name] := by
  rw [nameIn]
  cases hlast : other.getLast? with
  | none =>
    rw [List.getLast?_eq_none_iff] at hlast
    simp [hlast]
  | some last =>
    obtain ⟨before, rfl⟩ := List.getLast?_eq_some_iff.mp hlast
    rw [List.dropLast_concat]
    by_cases hplace : before = place
    · simp [hplace]
    · simp [hplace]

theorem entryAt_concat (place : Place) (name : String) :
    fs.entryAt (place ++ [name]) = fs.entries.lookup (place ++ [name]) := by
  cases place <;> rfl

theorem mem_entries_of_entryAt {place : Place} {entry : Entry}
    (h : fs.entryAt (place ++ [name]) = some entry) : (place ++ [name], entry) ∈ fs.entries := by
  rw [entryAt_concat] at h
  obtain ⟨before, after, hentries, -⟩ := List.lookup_eq_some_iff.mp h
  rw [hentries]
  exact List.mem_append_right _ List.mem_cons_self

/-- The names in a folder are those under which something lies there. -/
theorem mem_keys_children_iff : name ∈ (fs.children here).keys ↔
    ∃ entry, fs.entryAt (here ++ [name]) = some entry := by
  rw [children, Dict.mem_keys_ofList]
  constructor
  · intro h
    obtain ⟨⟨_, entry⟩, hmem, rfl⟩ := List.mem_map.mp h
    obtain ⟨⟨place, entry'⟩, he, heq⟩ := List.mem_filterMap.mp hmem
    obtain ⟨name', hname, hpair⟩ := Option.map_eq_some_iff.mp heq
    obtain ⟨rfl, rfl⟩ := Prod.mk.inj hpair
    obtain rfl := nameIn_eq_some_iff.mp hname
    cases hfound : fs.entryAt (here ++ [name']) with
    | some entry => exact ⟨entry, rfl⟩
    | none =>
      rw [entryAt_concat, List.lookup_eq_none_iff] at hfound
      exact absurd (hfound _ he) (by simp)
  · rintro ⟨entry, h⟩
    refine List.mem_map.mpr ⟨(name, entry), List.mem_filterMap.mpr ⟨_, mem_entries_of_entryAt h, ?_⟩, rfl⟩
    rw [nameIn_eq_some_iff.mpr rfl]
    rfl

/-- A path leads to a folder if it leads to a place and a folder lies there. -/
theorem folder_eq_ok_iff {entries : Dict Entry} : fs.folder path = .ok entries ↔
    ∃ here, fs.locate path = .ok here ∧ fs.entryAt here = some .folder ∧ fs.children here = entries := by
  cases hpath : fs.locate path with
  | error cause => simp [folder, hpath, bind, Except.bind]
  | ok here =>
    cases hentry : fs.entryAt here with
    | none => simp [folder, hpath, hentry, bind, Except.bind]
    | some entry => cases entry <;> simp [folder, hpath, hentry, bind, Except.bind]

theorem folder_eq (h : fs.locate path = .ok here) (hfolder : fs.entryAt here = some .folder) :
    fs.folder path = .ok (fs.children here) := folder_eq_ok_iff.mpr ⟨here, h, hfolder, rfl⟩

theorem HasNames.isName (h : fs.HasNames) {entry : Entry}
    (hentry : fs.entryAt (here ++ [name]) = some entry) :
    Path.IsName name ∧ name.utf8ByteSize ≤ nameLimit :=
  h _ (mem_entries_of_entryAt hentry) name (List.mem_append_right _ List.mem_cons_self)

/-- A step by a name such as a file system gives leads to what has it. -/
theorem step_of_isName (hfolder : fs.entryAt here = some .folder) (hname : Path.IsName name)
    (hsize : name.utf8ByteSize ≤ nameLimit) : fs.step here name = .ok (here ++ [name]) := by
  rw [step, hfolder]
  simp [hname.ne_empty, hname.ne_here, hname.ne_up, Nat.not_lt.mpr hsize]

/-! ## Reading what was written -/

variable {place : Place} {entry : Entry}

theorem entryAt_put_of_ne {other : Place} (h : other ≠ place) :
    (fs.put place entry).entryAt other = fs.entryAt other := by
  have hother : (other == place) = false := beq_eq_false_iff_ne.mpr h
  cases other with
  | nil => rfl
  | cons name rest =>
    have hfilter : ∀ entries : List (Place × Entry), List.lookup (name :: rest)
        (entries.filter (fun e => e.1 ≠ place) ++ [(place, entry)]) = entries.lookup (name :: rest) := by
      intro entries
      induction entries with
      | nil =>
        rw [List.filter_nil, List.nil_append, List.lookup_cons, hother]
      | cons e entries ih =>
        obtain ⟨at', e⟩ := e
        by_cases hat : at' = place
        · subst hat
          rw [List.filter_cons_of_neg (by simp), List.lookup_cons, hother]
          exact ih
        · rw [List.filter_cons_of_pos (by simpa using hat), List.cons_append, List.lookup_cons,
            List.lookup_cons, ih]
    exact hfilter fs.entries

theorem entryAt_put_self (h : place ≠ []) : (fs.put place entry).entryAt place = some entry := by
  have hlookup : (fs.put place entry).entries.lookup place = some entry := by
    rw [put, List.lookup_eq_some_iff]
    refine ⟨_, [], rfl, fun e he => ?_⟩
    have hne : e.1 ≠ place := of_decide_eq_true (List.mem_filter.mp he).2
    exact bne_iff_ne.mpr (Ne.symm hne)
  cases place with
  | nil => exact absurd rfl h
  | cons name rest => exact hlookup

/-- No step starts from a place where no folder lies, so what is put there changes none. -/
theorem step_put (hfolder : fs.entryAt place ≠ some .folder) {next : Place}
    (h : fs.step here name = .ok next) : (fs.put place entry).step here name = .ok next := by
  have hne : here ≠ place := fun heq => hfolder (heq ▸ entryAt_of_step h)
  rwa [step, entryAt_put_of_ne hne]

theorem locate_put (hfolder : fs.entryAt place ≠ some .folder) (h : fs.locate path = .ok here) :
    (fs.put place entry).locate path = .ok here := by
  have hwalk : ∀ (names : List String) (start : Place), names.foldlM fs.step start = .ok here →
      names.foldlM (fs.put place entry).step start = .ok here := by
    intro names
    induction names with
    | nil => exact fun _ h => h
    | cons name names ih =>
      intro start h
      rw [List.foldlM_cons] at h ⊢
      cases hstep : fs.step start name with
      | error cause =>
        rw [hstep] at h
        cases h
      | ok next =>
        rw [hstep] at h
        rw [step_put hfolder hstep]
        exact ih next h
  obtain ⟨hne, hnul, hsize, hfold⟩ := locate_eq_ok_iff.mp h
  exact locate_eq_ok_iff.mpr ⟨hne, hnul, hsize, hwalk _ _ hfold⟩

theorem readText_write {fs' : FileSystem} {text : String} (h : fs.write path text.toUTF8 = .ok fs') :
    fs'.readText path = .ok text := by
  cases hlocate : fs.locate path with
  | error cause =>
    rw [write, hlocate] at h
    cases h
  | ok place =>
    have hfolder : fs.entryAt place ≠ some .folder := by
      intro hfolder
      simp only [write, hlocate, bind, Except.bind, hfolder] at h
      cases h
    have hput : fs' = fs.put place (.file text.toUTF8) := by
      simp only [write, hlocate, bind, Except.bind] at h
      exact (Except.ok.inj h).symm
    have hplace : place ≠ [] := fun hnil => hfolder (hnil ▸ rfl)
    have hread : fs'.read path = .ok text.toUTF8 := by
      rw [hput, read, find_eq (locate_put hfolder hlocate), entryAt_put_self hplace]
      rfl
    rw [readText, hread]
    simp only [bind, Except.bind, Text.fromUTF8?_toUTF8]

end RouteFleet.FileSystem
