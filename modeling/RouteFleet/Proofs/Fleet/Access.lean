import RouteFleet.Proofs.Fleet.Outcome
import RouteFleet.Proofs.Store.Discovery
import RouteFleet.Proofs.Store.Path
import RouteFleet.Proofs.Store.Reserved

/-! # Listing and access

A store goes from the names of files that are found to identities when it lists, and from identities to
names of files when it reads. Where the files are found (`Store.Finds`), the two agree on every plain key but
one: a file whose name is the ending alone is listed as if the ending were its key, and what is read under
that key is another file (`Store.mem_list_iff_finds`).

What is listed need not be a plain key: an identity with two dots in a row or a backslash is listed and is
refused when it is read (`RouteId.IsBarred`). Nor need the path by which it is read fit where the shorter one
fits by which its file was found. So a file with a stray name makes every listing of a fleet fail, or is left
out of it, and without stray names a fleet's listing has each object that is listed by the store
(`Fleet.listing_access`).
-/

namespace RouteFleet

/-- Whether an identity has dots or a backslash in it as no plain key has. -/
def RouteId.IsBarred (id : RouteId) : Prop :=
  id.text = "." ∨ Text.contains ".." id.text = true ∨ '\\' ∈ id.text.toList

namespace Store

/-! ## Names of listed files -/

/-- Whether a folder's names are such as a file system has. -/
def HasFileNames (entries : Dict Entry) : Prop := ∀ file e, entries.get? file = some e →
  Path.IsName file ∧ file.utf8ByteSize ≤ FileSystem.nameLimit

theorem IsIn.hasFileNames {s : Store} {fs : FileSystem} (h : s.IsIn fs) {entries : Dict Entry}
    (hentries : s.content = .ok entries) : HasFileNames entries := by
  obtain ⟨place, -, -, rfl⟩ := FileSystem.folder_eq_ok_iff.mp (h.content.symm.trans hentries)
  exact fun file e he => h.hasNames.isName ((FileSystem.get?_children_iff h.distinct).mp he)

/-- Whether a file lies in a folder under a name. -/
def HasFile (entries : Dict Entry) (name : String) : Prop :=
  ∃ bytes, entries.get? name = some (.file bytes)

/-- Whether a file lies under a name in the folder at `root`, and is found there. -/
structure Finds (root : String) (entries : Dict Entry) (name : String) : Prop where
  hasFile : HasFile entries name
  canFind : Glob.canFind root name = true

section Names

variable {root file : String} {id : RouteId} {bytes : ByteArray}

/-- A file with the ending that is found is listed under what stands before the ending; the ending alone,
under itself. -/
theorem routeOf?_eq_some_iff (hname : Path.IsName file) : routeOf? root file (.file bytes) = some id ↔
    Glob.canFind root file = true ∧ Text.beginsWith sharedLead file = false ∧
      ((file = RouteId.fileEnding ∧ id.text = RouteId.fileEnding) ∨
        (id.text ≠ "" ∧ file = id.fileName)) := by
  rw [routeOf?_iff]
  constructor
  · rintro ⟨-, ⟨hfound, hends, hlead⟩, hid⟩
    refine ⟨hfound, hlead, ?_⟩
    obtain ⟨stem, hstem⟩ := List.isSuffixOf_iff_suffix.mp hends
    obtain rfl : String.ofList stem ++ RouteId.fileEnding = file :=
      String.toList_inj.mp (by rw [← hstem]; simp)
    rw [RouteId.ofPath?_ending hname] at hid
    obtain rfl := Option.some.inj hid
    by_cases hempty : String.ofList stem = ""
    · refine .inl ⟨?_, if_pos hempty⟩
      rw [hempty, String.empty_append]
    · refine .inr ⟨?_, ?_⟩
      · rwa [if_neg hempty]
      · rw [if_neg hempty]
        rfl
  · rintro ⟨hfound, hlead, ⟨rfl, hid⟩ | ⟨hid, rfl⟩⟩
    · obtain ⟨text⟩ := id
      obtain rfl : text = RouteId.fileEnding := hid
      exact ⟨Entry.noConfusion, ⟨hfound, by decide, hlead⟩, rfl⟩
    · refine ⟨Entry.noConfusion, ⟨hfound, endsWith_fileName id, hlead⟩, ?_⟩
      exact (RouteId.ofPath?_ending hname).trans (congrArg (fun text => some (RouteId.mk text)) (if_neg hid))

/-- What is listed is a plain key unless it has dots or a backslash in it as none has. -/
theorem isPlainKey_eq_false_iff (hname : Path.IsName id.fileName) (hne : id.text ≠ "") :
    isPlainKey id.text = false ↔ id.IsBarred := by
  have hmem : ∀ c ∈ id.text.toList, c ≠ '/' ∧ c ≠ '\x00' := by
    intro c hc
    have hfile : c ∈ id.fileName.toList := by
      rw [RouteId.fileName, String.toList_append]
      exact List.mem_append_left _ hc
    constructor
    · rintro rfl
      exact hname.slash hfile
    · rintro rfl
      exact hname.nul hfile
  have hclean : (id.text.toList.all fun c => c ≠ '/' && c ≠ '\\' && c ≠ '\x00') = true ↔
      '\\' ∉ id.text.toList := by
    rw [List.all_eq_true]
    constructor
    · intro h hback
      exact absurd (h _ hback) (by decide)
    · intro h c hc
      have hback : c ≠ '\\' := fun heq => h (heq ▸ hc)
      simp [hmem c hc, hback]
  rw [← Bool.not_eq_true, isPlainKey, Bool.and_eq_true, hclean, RouteId.IsBarred]
  simp only [ne_eq, hne, not_false_eq_true, decide_true, decide_not, Bool.true_and, Bool.and_eq_true,
    Bool.not_eq_true', decide_eq_false_iff_not]
  rw [not_and_or, not_and_or, not_not, not_not, Bool.not_eq_false, or_assoc]

end Names

/-! ## Lists of identities -/

section Lists

variable {s : Store} {entries : Dict Entry} {ids : List RouteId} {id : RouteId}

/-- Listed are the identities that name a file that is found, and the ending if it is all of such a file's
name. -/
theorem mem_list_iff_finds (hentries : s.content = .ok entries) (hnames : HasFileNames entries)
    (hlist : s.list = .ok ids) : id ∈ ids ↔
      (id.text ≠ "" ∧ id.isReserved = false ∧ Finds s.root entries id.fileName) ∨
        (id.text = RouteId.fileEnding ∧ Finds s.root entries RouteId.fileEnding) := by
  rw [mem_list_iff hentries hlist]
  constructor
  · rintro ⟨file, bytes, hfile, hroute⟩
    obtain ⟨hfound, hlead, ⟨rfl, hid⟩ | ⟨hid, rfl⟩⟩ :=
      (routeOf?_eq_some_iff (hnames file _ hfile).1).mp hroute
    · exact .inr ⟨hid, ⟨bytes, hfile⟩, hfound⟩
    · exact .inl ⟨hid, (RouteId.beginsWith_fileName id).symm.trans hlead, ⟨bytes, hfile⟩, hfound⟩
  · rintro (⟨hid, hlead, ⟨bytes, hfile⟩, hfound⟩ | ⟨hid, ⟨bytes, hfile⟩, hfound⟩)
    · refine ⟨id.fileName, bytes, hfile, (routeOf?_eq_some_iff (hnames _ _ hfile).1).mpr ?_⟩
      exact ⟨hfound, (RouteId.beginsWith_fileName id).trans hlead, .inr ⟨hid, rfl⟩⟩
    · refine ⟨RouteId.fileEnding, bytes, hfile, (routeOf?_eq_some_iff (hnames _ _ hfile).1).mpr ?_⟩
      exact ⟨hfound, by decide, .inl ⟨rfl, hid⟩⟩

/-- The key of a file that lies in a folder does not make the file's name too long. -/
theorem isTooLong_of_hasFile (hnames : HasFileNames entries) (h : HasFile entries id.fileName) :
    isTooLong id.text = false := by
  obtain ⟨bytes, hfile⟩ := h
  rw [isTooLong, decide_eq_false_iff_not, Nat.not_lt]
  exact (hnames _ _ hfile).2

theorem not_isBarred_of_fileEnding (h : id.text = RouteId.fileEnding) : ¬ id.IsBarred := by
  rw [RouteId.IsBarred, h]
  decide

/-- What a store answers when it is asked for the identity as which a file was listed. -/
structure Answers (s : Store) (file : String) (bytes : ByteArray) (id : RouteId) : Prop where
  /-- It gives the content of that very file, or else the file's name is the ending alone, the identity is
  barred, or the path by which it is read is too long. -/
  iff_same : (id.fileName = file ∧ s.read id.text = .ok (some bytes)) ↔
    file ≠ RouteId.fileEnding ∧ ¬ id.IsBarred ∧ isPathTooLong s.root id.text = false
  ending : file = RouteId.fileEnding → id.text = RouteId.fileEnding
  barred : id.IsBarred → s.read id.text = .error (.invalidKey id.text)
  tooLong : ¬ id.IsBarred → isPathTooLong s.root id.text = true →
    s.read id.text = .error (.io (Path.join s.root id.fileName) .nameTooLong)

theorem read_of_isBarred (hname : Path.IsName id.fileName) (hid : id.text ≠ "") (h : id.IsBarred) :
    s.read id.text = .error (.invalidKey id.text) := by
  refine (refuses_of_path? ?_).read
  rw [path?, (isPlainKey_eq_false_iff hname hid).mpr h]
  rfl

theorem read_of_isPathTooLong (hkey : isPlainKey id.text = true) (h : isPathTooLong s.root id.text = true) :
    s.read id.text = .error (.io (Path.join s.root id.fileName) .nameTooLong) := by
  rw [read, find, path?, if_pos hkey]
  simp only [bind, Except.bind, h, if_true]
  rfl

/-- A file with the ending alone as its name is listed under a key that is not its own. -/
theorem answers_fileEnding (bytes : ByteArray) (h : id.text = RouteId.fileEnding) :
    Answers s RouteId.fileEnding bytes id where
  iff_same := by
    refine ⟨fun hsame => ?_, fun hother => absurd rfl hother.1⟩
    have hempty : id = ⟨""⟩ := RouteId.fileName_inj hsame.1
    rw [hempty] at h
    exact absurd h (by decide)
  ending _ := h
  barred hbarred := absurd hbarred (not_isBarred_of_fileEnding h)
  tooLong _ hlong := read_of_isPathTooLong (by rw [h]; decide) hlong

/-- A file whose name goes on before the ending is listed under its own key. -/
theorem answers_fileName (hentries : s.content = .ok entries) (hnames : HasFileNames entries)
    {bytes : ByteArray} (hfile : entries.get? id.fileName = some (.file bytes)) (hid : id.text ≠ "") :
    Answers s id.fileName bytes id := by
  have hname := (hnames _ _ hfile).1
  have hbarred := fun h : id.IsBarred => @read_of_isBarred s id hname hid h
  have hplain : ¬ id.IsBarred → isPlainKey id.text = true := by
    intro hfree
    rwa [← isPlainKey_eq_false_iff hname hid, Bool.not_eq_false] at hfree
  have hending : id.fileName ≠ RouteId.fileEnding := by
    intro h
    have hempty : id = ⟨""⟩ := RouteId.fileName_inj h
    exact hid (congrArg RouteId.text hempty)
  refine ⟨⟨?_, ?_⟩, fun h => absurd h hending, hbarred, fun hfree => read_of_isPathTooLong (hplain hfree)⟩
  · rintro ⟨-, hread⟩
    refine ⟨hending, fun h => ?_, ((read_eq_ok_iff hentries).mp hread).1.isPathTooLong⟩
    cases (hbarred h).symm.trans hread
  · rintro ⟨-, hfree, hfits⟩
    have hshort := isTooLong_of_hasFile hnames ⟨bytes, hfile⟩
    exact ⟨rfl, (read_eq_ok_iff hentries).mpr ⟨⟨hplain hfree, hshort, hfits⟩, hfile⟩⟩

/-- A barred identity is not read, nor is one whose path is too long. -/
theorem Answers.exists_error {file : String} {bytes : ByteArray} (h : Answers s file bytes id)
    (hunread : id.IsBarred ∨ isPathTooLong s.root id.text = true) : ∃ cause, s.read id.text = .error cause := by
  by_cases hbarred : id.IsBarred
  · exact ⟨_, h.barred hbarred⟩
  · exact ⟨_, h.tooLong hbarred (hunread.resolve_left hbarred)⟩

theorem answers_of_routeOf? (hentries : s.content = .ok entries) (hnames : HasFileNames entries)
    {file : String} {bytes : ByteArray} (hfile : entries.get? file = some (.file bytes))
    (hroute : routeOf? s.root file (.file bytes) = some id) : Answers s file bytes id := by
  obtain ⟨-, -, ⟨rfl, hid⟩ | ⟨hid, rfl⟩⟩ := (routeOf?_eq_some_iff (hnames file _ hfile).1).mp hroute
  · exact answers_fileEnding bytes hid
  · exact answers_fileName hentries hnames hfile hid

/-- What is listed and is not a plain key is barred. -/
theorem isBarred_of_mem_list (hentries : s.content = .ok entries) (hnames : HasFileNames entries)
    (hlist : s.list = .ok ids) (hid : id ∈ ids) (hplain : isPlainKey id.text = false) : id.IsBarred := by
  rcases (mem_list_iff_finds hentries hnames hlist).mp hid with ⟨hne, -, ⟨bytes, hfile⟩, -⟩ | ⟨htext, -⟩
  · exact (isPlainKey_eq_false_iff (hnames _ _ hfile).1 hne).mp hplain
  · rw [htext] at hplain
    exact absurd hplain (by decide)

/-- A key is refused as such only if it is not plain. -/
theorem isPlainKey_of_read {key key' : String} (h : s.read key = .error (.invalidKey key')) :
    key = key' ∧ isPlainKey key = false := by
  cases hplain : isPlainKey key with
  | false =>
    have hrefused : s.read key = .error (.invalidKey key) :=
      (refuses_of_path? (by rw [path?, hplain]; rfl)).read
    exact ⟨StoreError.invalidKey.inj (Except.error.inj (hrefused.symm.trans h)), rfl⟩
  | true =>
    -- A plain key can fail in no other way than by an error of the system.
    have hfind : ∀ cause, s.find key = .error cause → ∃ path error, cause = .io path error := by
      intro cause hcause
      rw [find, path?, if_pos hplain] at hcause
      simp only [bind, Except.bind] at hcause
      split at hcause
      · exact ⟨_, _, (Except.error.inj hcause).symm⟩
      split at hcause
      · cases hcause
      · exact ⟨_, _, (Except.error.inj hcause).symm⟩
      split at hcause
      · exact ⟨_, _, (Except.error.inj hcause).symm⟩
      · cases hcause
    rw [read] at h
    cases hfound : s.find key with
    | error cause =>
      rw [hfound] at h
      obtain ⟨path, error, rfl⟩ := hfind cause hfound
      cases h
    | ok found =>
      rw [hfound] at h
      cases found with
      | none => cases h
      | some e => cases e <;> cases h

end Lists

end Store

/-! ## Listings of a fleet -/

namespace Fleet

section Loading

variable {fleet after : Fleet} {ids : List RouteId} {rs : List StoredRoute}

/-- What fails together fails because one identity cannot be loaded. -/
theorem exists_of_outcome_loadAll_error {e : FleetError}
    (h : outcome (loadAll ids) fleet = (.error e, after)) :
    ∃ id ∈ ids, outcome (load id) fleet = (.error e, fleet) := by
  induction ids generalizing after with
  | nil => cases h
  | cons id ids ih =>
    rw [loadAll] at h
    rcases outcome_load_cases id fleet with ⟨cause, hload⟩ | ⟨hload, -⟩ | ⟨g, hload, -⟩
    · rw [outcome_bind_error hload] at h
      obtain ⟨⟨⟩, -⟩ := Prod.mk.inj h
      exact ⟨id, List.mem_cons_self, hload⟩
    · rw [outcome_bind_ok hload] at h
      obtain ⟨id', hid', hfails⟩ := ih h
      exact ⟨id', List.mem_cons_of_mem _ hid', hfails⟩
    · rw [outcome_bind_ok hload] at h
      rcases outcome_bind_cases h with ⟨cause, hrest, hcause⟩ | ⟨rs, mid, -, hpure⟩
      · obtain rfl := Except.error.inj hcause
        obtain ⟨id', hid', hfails⟩ := ih hrest
        exact ⟨id', List.mem_cons_of_mem _ hid', hfails⟩
      · cases hpure

/-- What is loaded together are the routes that are there. -/
theorem map_id_of_outcome_loadAll {entries : Dict Entry} (hentries : fleet.store.content = .ok entries)
    (h : outcome (loadAll ids) fleet = (.ok rs, after)) :
    rs.map (·.id) = ids.filter fun id => (entries.get? id.fileName).isSome := by
  induction ids generalizing rs after with
  | nil =>
    obtain ⟨⟨⟩, -⟩ := Prod.mk.inj h
    rfl
  | cons id ids ih =>
    rw [loadAll] at h
    rcases outcome_load_cases id fleet with ⟨cause, hload⟩ | ⟨hload, hgone⟩ | ⟨g, hload, bytes, hread, -⟩
    · rw [outcome_bind_error hload] at h
      cases h
    · rw [outcome_bind_ok hload] at h
      have hnone : entries.get? id.fileName = none := ((Store.read_eq_none_iff hentries).mp hgone).2
      rw [List.filter_cons_of_neg (by simp [hnone]), ih h]
    · rw [outcome_bind_ok hload] at h
      obtain ⟨rest, mid, hrest, hpure⟩ := outcome_bind_eq_ok h
      obtain ⟨⟨⟩, -⟩ := Prod.mk.inj hpure
      have hsome : entries.get? id.fileName = some (.file bytes) :=
        ((Store.read_eq_ok_iff hentries).mp hread).2
      rw [List.filter_cons_of_pos (by simp [hsome]), List.map_cons, ih hrest]

/-- A load fails for a key as such only if the key is not plain. -/
theorem isPlainKey_of_outcome_load {id : RouteId} {key : String}
    (h : outcome (load id) fleet = (.error (.store (.invalidKey key)), after)) :
    id.text = key ∧ Store.isPlainKey id.text = false := by
  cases hread : fleet.store.read id.text with
  | error cause =>
    have hload : outcome (load id) fleet = (.error (.store cause), fleet) :=
      outcome_bind_error (outcome_look_error hread)
    obtain ⟨hcause, -⟩ := Prod.mk.inj (hload.symm.trans h)
    obtain rfl := FleetError.store.inj (Except.error.inj hcause)
    exact Store.isPlainKey_of_read hread
  | ok found =>
    cases found with
    | none =>
      rw [outcome_load_of_gone hread] at h
      cases h
    | some bytes =>
      cases hgraph : graphOf id.text bytes with
      | ok g =>
        rw [@outcome_load_of_isStored fleet ⟨id, g⟩ ⟨bytes, hread, hgraph⟩] at h
        cases h
      | error cause =>
        have hlook : outcome (look (·.read id.text)) fleet = (.ok (some bytes), fleet) :=
          outcome_look_ok hread
        have hdecode : outcome (look fun _ => graphOf id.text bytes) fleet =
            (.error (.store cause), fleet) := outcome_look_error hgraph
        have hload : outcome (load id) fleet = (.error (.store cause), fleet) :=
          (outcome_bind_ok hlook).trans (outcome_bind_error hdecode)
        obtain ⟨hcause, -⟩ := Prod.mk.inj (hload.symm.trans h)
        obtain rfl := FleetError.store.inj (Except.error.inj hcause)
        rw [graphOf] at hgraph
        split at hgraph <;> cases hgraph

end Loading

/-- How what a store lists, what discovery finds and what is read agree, in a folder with some entries in a
tree. -/
structure ListingAccess (fleet : Fleet) (fs : FileSystem) (entries : Dict Entry) (paths : List String)
    (ids : List RouteId) : Prop where
  discovered : Glob.discover fs fleet.store.root "*.yaml" = .ok paths
  listed : fleet.store.list = .ok ids
  ids_eq : ids = paths.filterMap Store.listedAs?
  /-- Of the identities that are not reserved, plain keys or not, those are listed that name a file that is
  found, and the ending if it is all of such a file's name. -/
  mem_iff : ∀ id : RouteId, id ∈ ids ↔
    (id.text ≠ "" ∧ id.isReserved = false ∧ Store.Finds fleet.store.root entries id.fileName) ∨
      (id.text = RouteId.fileEnding ∧ Store.Finds fleet.store.root entries RouteId.fileEnding)
  /-- Each path leads to a file of the folder, and what is listed for it is answered with that file. -/
  answers : ∀ path ∈ paths, ∃ file bytes, Path.fileName? path = some file ∧
    entries.get? file = some (.file bytes) ∧ fs.read path = .ok bytes ∧
      ∀ id, Store.listedAs? path = some id → Store.Answers fleet.store file bytes id
  /-- One identity that is barred or has too long a path fails the listing of the fleet, which fails for a
  key as such only where one is barred. -/
  fails : ∀ id ∈ ids, id.IsBarred ∨ Store.isPathTooLong fleet.store.root id.text = true →
    ∃ e, outcome list fleet = (.error e, fleet)
  barred : ∀ key after, outcome list fleet = (.error (.store (.invalidKey key)), after) →
    ⟨key⟩ ∈ ids ∧ RouteId.IsBarred ⟨key⟩
  /-- A listing that succeeds has the identities that name something, in order. -/
  kept : ∀ rs after, outcome list fleet = (.ok rs, after) →
    rs.map (·.id) = ids.filter fun id => (entries.get? id.fileName).isSome
  whole : ¬ Store.HasFile entries RouteId.fileEnding → ∀ rs after, outcome list fleet = (.ok rs, after) →
    rs.map (·.id) = ids

/-- Listing and access, in a folder that is at hand somewhere in a tree. A store lists what discovery finds.
Where files are found, that is under each root that does not lose its way if the paths fit, the plain keys
that are listed are those that name a file, and the ending if it is all of a file's name. What is listed for
a file is read from that very file, unless the file's name is the ending alone, the identity is barred or the
path by which it is read is too long. -/
theorem listing_access {fleet : Fleet} {fs : FileSystem} (h : fleet.store.IsIn fs) {entries : Dict Entry}
    (hentries : fleet.store.content = .ok entries) :
    ∃ paths ids, ListingAccess fleet fs entries paths ids := by
  have hnames := h.hasFileNames hentries
  obtain ⟨paths, hpaths, hlist⟩ := h.list_eq_discover hentries
  have hall := outcome_list_of_ok hlist
  have hmem := fun id : RouteId => @Store.mem_list_iff_finds fleet.store entries _ id hentries hnames hlist
  refine ⟨paths, _, hpaths, hlist, rfl, hmem, fun path hpath => ?_, ?_, ?_, ?_, ?_⟩
  · obtain ⟨file, bytes, hname, hfile, hbytes, hlisted⟩ := h.of_mem_discover hentries hpaths hpath
    refine ⟨file, bytes, hname, hfile, hbytes, fun id hid => ?_⟩
    exact Store.answers_of_routeOf? hentries hnames hfile (hlisted.symm.trans hid)
  · intro id hid hunread
    obtain ⟨file, bytes, hfile, hroute⟩ := (Store.mem_list_iff hentries hlist).mp hid
    obtain ⟨cause, hread⟩ := (Store.answers_of_routeOf? hentries hnames hfile hroute).exists_error hunread
    have hload : outcome (load id) fleet = (.error (.store cause), fleet) :=
      outcome_bind_error (outcome_look_error hread)
    exact outcome_list_of_someUnread hlist ⟨id, hid, _, congrArg Prod.fst hload⟩
  · intro key after hfail
    obtain ⟨id, hid, hfails⟩ := exists_of_outcome_loadAll_error (hall.symm.trans hfail)
    obtain ⟨rfl, hplain⟩ := isPlainKey_of_outcome_load hfails
    exact ⟨hid, Store.isBarred_of_mem_list hentries hnames hlist hid hplain⟩
  · intro rs after hrs
    exact map_id_of_outcome_loadAll hentries (hall.symm.trans hrs)
  · intro hending rs after hrs
    rw [map_id_of_outcome_loadAll hentries (hall.symm.trans hrs), List.filter_eq_self]
    intro id hid
    rcases (hmem id).mp hid with ⟨-, -, ⟨bytes, hfile⟩, -⟩ | ⟨-, hfile, -⟩
    · rw [hfile]
      rfl
    · exact absurd hfile hending

/-- A tree with a folder in which one file's name is the ending alone, and one has two dots in a row. -/
def strayTree : FileSystem where
  entries := [(["conf"], .folder), (["conf", ".yaml"], .file .empty), (["conf", "a..b.yaml"], .file .empty),
    (["conf", "blog.yaml"], .file .empty)]
  start := []

/-- A fleet of the folder to which a path leads in that tree. -/
def strayFleet (root : String) : Fleet where
  store := { root := root, content := strayTree.folder root }
  tags := []
  compiler := { certResolver := "le", hasher := Hasher.marking, hostIp := none }

/-- The one file is listed under a key that names none, and for the other the listing fails. By a path that
loses its way no file is listed, though its key is plain and it is there. -/
theorem listing_access_strayFleet :
    (∃ ids, (strayFleet "conf").store.list = .ok ids ∧ ⟨".yaml"⟩ ∈ ids ∧
      (strayFleet "conf").store.read ".yaml" = .ok none ∧ ⟨"a..b"⟩ ∈ ids ∧
      (strayFleet "conf").store.read "a..b" = .error (.invalidKey "a..b") ∧
      ∃ e, outcome list (strayFleet "conf") = (.error e, strayFleet "conf")) ∧
    ∃ ids, (strayFleet ".//conf").store.list = .ok ids ∧ ⟨"blog"⟩ ∉ ids ∧
      (strayFleet ".//conf").store.read "blog" = .ok (some .empty) := by
  have hin : ∀ root, (strayFleet root).store.IsIn strayTree := fun root => ⟨by decide, by decide, rfl⟩
  have hfolder : strayTree.folder "conf" = .ok (strayTree.children ["conf"]) := rfl
  have hlost : strayTree.folder ".//conf" = .ok (strayTree.children ["conf"]) := rfl
  constructor
  · obtain ⟨paths, ids, h⟩ := @listing_access (strayFleet "conf") strayTree (hin "conf") _ hfolder
    have hids : (strayFleet "conf").store.list = .ok [⟨".yaml"⟩, ⟨"a..b"⟩, ⟨"blog"⟩] := by decide +kernel
    have hmem : ⟨"a..b"⟩ ∈ ids := Except.ok.inj (hids.symm.trans h.listed) ▸ by decide
    have hbarred : RouteId.IsBarred ⟨"a..b"⟩ := .inr (.inl (by decide))
    obtain ⟨path, hpath, hlisted⟩ := List.mem_filterMap.mp (h.ids_eq ▸ hmem)
    obtain ⟨file, bytes, -, -, -, hanswers⟩ := h.answers path hpath
    refine ⟨ids, h.listed, ?_, rfl, hmem, (hanswers _ hlisted).barred hbarred, h.fails _ hmem (.inl hbarred)⟩
    exact (h.mem_iff ⟨".yaml"⟩).mpr (.inr ⟨rfl, ⟨.empty, rfl⟩, by decide⟩)
  · obtain ⟨paths, ids, h⟩ := @listing_access (strayFleet ".//conf") strayTree (hin ".//conf") _ hlost
    refine ⟨ids, h.listed, fun hmem => ?_, rfl⟩
    rcases (h.mem_iff ⟨"blog"⟩).mp hmem with ⟨-, -, -, hfound⟩ | ⟨hending, -⟩
    · exact absurd hfound (by decide)
    · exact absurd hending (by decide)

end Fleet

end RouteFleet
