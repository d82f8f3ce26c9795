import RouteFleet.Glob.Discover
import RouteFleet.Proofs.File.Path

/-! # Paths that grow name by name

What is found is spelled by a path that grows from the top or from the place itself, one name after the
other. While it grows it stays a single dot, or it leads on (`Path.IsTrail`). The path of a child leads where
one step by the child's name leads, unless it has become too long (`FileSystem.locate_child`); it is as long
as its lead and its name (`Path.utf8ByteSize_child`); and of two children of one folder the one comes first
whose name does (`Path.keyLe_sortKey_child`).

A path that does not lose its way (`Path.isLost`) is itself walked so (`Path.isTrail_walked`), which makes no
path of a child longer (`Path.utf8ByteSize_child_walked_le`). So whatever the system takes as a path is found
(`Glob.canFind_iff`).
-/

namespace RouteFleet

namespace Path

variable {path name other : String}

/-! ## Paths that lead on -/

/-- Whether a path begins at the top or moves. -/
def LeadsOn (path : String) : Prop := isAbsolute path = true ∨ steps path ≠ []

/-- Whether a path is the place itself, by a single dot, or leads on. -/
def IsTrail (path : String) : Prop := path = "." ∨ LeadsOn path

theorem isHere_dot : isHere "." = true := by decide

theorem LeadsOn.ne_dot (h : LeadsOn path) : path ≠ "." := by
  rintro rfl
  rcases h with h | h
  · exact absurd h (by decide)
  · exact h (by decide)

theorem LeadsOn.isHere_eq_false (h : LeadsOn path) : isHere path = false := by
  have hrank : ∀ name : String, (if name = ".." then (2, "") else (3, name)) ≠ ((1, "") : Nat × String) := by
    intro name
    split <;> simp
  rw [isHere, decide_eq_false_iff_not, sortKey]
  split
  · simp
  · rename_i hrelative
    obtain ⟨first, rest, hsteps⟩ := List.exists_cons_of_ne_nil (h.resolve_left hrelative)
    split
    · simp [hsteps]
    · rw [hsteps]
      exact fun heq => hrank first (List.cons.inj heq).1

/-- The child of the place itself is spelled by its name, any other by the folder's path and its name. -/
theorem child_dot (name : String) : child "." name = name := if_pos isHere_dot

theorem LeadsOn.child_eq (h : LeadsOn path) (name : String) : child path name = join path name := by
  rw [child, h.isHere_eq_false]
  rfl

theorem LeadsOn.child (h : LeadsOn path) (hslash : '/' ∉ name.toList) : LeadsOn (child path name) := by
  rw [h.child_eq, LeadsOn, isAbsolute_join path hslash, steps_join_eq path hslash]
  exact h.imp_right fun hsteps => List.append_ne_nil_of_left_ne_nil hsteps _

/-- A path that grows stays a single dot or leads on, unless an empty name is put behind a single dot. -/
theorem IsTrail.child (h : IsTrail path) (hslash : '/' ∉ name.toList)
    (hkept : path = "." → name ≠ "") : IsTrail (child path name) := by
  rcases h with rfl | h
  · rw [child_dot]
    by_cases hdot : name = "."
    · exact .inl hdot
    · refine .inr (.inr ?_)
      have hmoves : [name].filter (fun n => n ≠ "" && n ≠ ".") = [name] :=
        List.filter_cons_of_pos (by simp [hkept rfl, hdot])
      rw [steps, names_of_notMem hslash, hmoves]
      exact List.cons_ne_nil _ _
  · exact .inr (h.child hslash)

theorem names_ne_nil (path : String) : names path ≠ [] :=
  mt List.map_eq_nil_iff.mp (Text.pieces_ne_nil '/' path.toList)

/-- A child's path ends with its name. -/
theorem IsTrail.fileName?_child (h : IsTrail path) (hname : IsName name) :
    fileName? (Path.child path name) = some name := by
  rcases h with rfl | h
  · rw [child_dot, hname.fileName?_eq]
  · rw [h.child_eq, fileName?_join path hname]

theorem IsTrail.ofPath?_child (h : IsTrail path) (hname : IsName name) :
    RouteId.ofPath? (Path.child path name) = RouteId.ofPath? name := by
  rw [RouteId.ofPath?, RouteId.ofPath?, fileStem?, fileStem?, h.fileName?_child hname, hname.fileName?_eq]

/-! ## Lengths -/

/-- How many bytes of a joined path stand before its name. -/
def joinSize (path : String) : Nat :=
  if Text.endsWith "/" path then path.utf8ByteSize else path.utf8ByteSize + 1

/-- How many bytes of a child's path stand before its name. -/
def leadSize (path : String) : Nat := if path = "." then 0 else joinSize path

theorem joinSize_le (path : String) : joinSize path ≤ path.utf8ByteSize + 1 := by
  rw [joinSize]
  split <;> omega

theorem leadSize_le (path : String) : leadSize path ≤ path.utf8ByteSize + 1 := by
  rw [leadSize]
  split
  · omega
  · exact joinSize_le path

theorem LeadsOn.ne_empty (h : LeadsOn path) : path ≠ "" := by
  rintro rfl
  rcases h with h | h
  · exact absurd h (by decide)
  · exact h (by decide)

/-- A joined path is as long as its two parts and the slash between them. -/
theorem utf8ByteSize_join (h : path ≠ "") (hslash : '/' ∉ name.toList) :
    (join path name).utf8ByteSize = joinSize path + name.utf8ByteSize := by
  have hone : "/".utf8ByteSize = 1 := rfl
  rw [join, isAbsolute_eq_false hslash, joinSize]
  cases hends : Text.endsWith "/" path with
  | true => simp
  | false => simp [h, hone]

/-- How many bytes names take with a slash behind each. -/
def sizeOf : List String → Nat
  | [] => 0
  | name :: names => name.utf8ByteSize + 1 + sizeOf names

theorem sizeOf_cons (name : String) (names : List String) :
    sizeOf (name :: names) = name.utf8ByteSize + 1 + sizeOf names := rfl

theorem sizeOf_append (before after : List String) :
    sizeOf (before ++ after) = sizeOf before + sizeOf after := by
  induction before with
  | nil => exact (Nat.zero_add _).symm
  | cons name names ih =>
    rw [List.cons_append, sizeOf_cons, sizeOf_cons, ih]
    exact (Nat.add_assoc _ _ _).symm

/-- A path is as long as its names with slashes between them. -/
theorem sizeOf_names (path : String) : sizeOf (names path) = path.utf8ByteSize + 1 := by
  have hpieces : ∀ cs : List Char, sizeOf ((Text.pieces '/' cs).map String.ofList) =
      (String.ofList cs).utf8ByteSize + 1 := by
    intro cs
    induction cs with
    | nil => rfl
    | cons c cs ih =>
      have hc : (String.ofList (c :: cs)).utf8ByteSize = c.utf8Size + (String.ofList cs).utf8ByteSize := by
        simp
      obtain ⟨p, ps, hps⟩ := List.exists_cons_of_ne_nil (Text.pieces_ne_nil '/' cs)
      rw [hps, List.map_cons, sizeOf_cons] at ih
      rw [Text.pieces_cons, hps]
      split
      · rename_i hslash
        have hone : c.utf8Size = 1 := by rw [hslash]; rfl
        rw [List.map_cons, sizeOf_cons, List.map_cons, sizeOf_cons, hc, String.ofList_nil,
          String.utf8ByteSize_empty]
        omega
      · have hp : (String.ofList (c :: p)).utf8ByteSize = c.utf8Size + (String.ofList p).utf8ByteSize := by
          simp
        rw [List.map_cons, sizeOf_cons, hc, hp]
        omega
  rw [names, hpieces, String.ofList_toList]

theorem utf8ByteSize_child (h : IsTrail path) (hslash : '/' ∉ name.toList) :
    (child path name).utf8ByteSize = leadSize path + name.utf8ByteSize := by
  rcases h with rfl | h
  · rw [child_dot, leadSize, if_pos rfl, Nat.zero_add]
  · rw [h.child_eq, utf8ByteSize_join h.ne_empty hslash, leadSize, if_neg h.ne_dot]

theorem leadSize_child_le (h : IsTrail path) (hslash : '/' ∉ name.toList) :
    leadSize (child path name) ≤ leadSize path + (name.utf8ByteSize + 1) := by
  have hsize := utf8ByteSize_child h hslash
  have hlead := leadSize_le (child path name)
  omega

/-! ## Order -/

/-- A child is ordered by what its folder's path is ordered by, and by its name. -/
theorem sortKey_join (h : path ≠ "") (hname : IsName name) :
    sortKey (join path name) = sortKey path ++ [(3, name)] := by
  have hhead : (names (join path name)).head? = (names path).head? := by
    rcases join_cases path hname.slash with ⟨hempty, -⟩ | ⟨lead, hjoin, hlead⟩
    · exact absurd hempty h
    · obtain ⟨p, ps, hpieces⟩ := List.exists_cons_of_ne_nil (Text.pieces_ne_nil '/' lead)
      have hpath : ∃ more, Text.pieces '/' path.toList = p :: more := by
        rcases hlead with ⟨hlead, -⟩ | hlead
        · exact ⟨ps, by rw [hlead, hpieces]⟩
        · exact ⟨ps ++ Text.pieces '/' [], by rw [hlead, Text.pieces_append_cons, hpieces]; rfl⟩
      obtain ⟨more, hmore⟩ := hpath
      rw [names, names, hjoin, Text.pieces_append_cons, hpieces, hmore]
      rfl
  rw [sortKey, sortKey, steps_join path hname, isAbsolute_join path hname.slash, hhead, List.map_append,
    List.map_singleton, if_neg hname.ne_up]
  split
  · rfl
  · split <;> rfl

theorem IsName.sortKey_eq (h : IsName name) : sortKey name = [(3, name)] := by
  rw [sortKey, isAbsolute_eq_false h.slash, names_of_notMem h.slash, h.steps_eq]
  simp [h.ne_here, h.ne_up]

theorem keyLe_append (keys : List (Nat × String)) (a b : List (Nat × String)) :
    keyLe (keys ++ a) (keys ++ b) = keyLe a b := by
  induction keys with
  | nil => rfl
  | cons key keys ih =>
    obtain ⟨rank, name⟩ := key
    rw [List.cons_append, List.cons_append, keyLe, ih]
    simp

/-- Children of one folder come in the order of their names. -/
theorem keyLe_sortKey_child (h : IsTrail path) (hname : IsName name) (hother : IsName other)
    (hbefore : Text.Before name other) :
    keyLe (sortKey (child path name)) (sortKey (child path other)) = true := by
  have hlast : keyLe [(3, name)] [(3, other)] = true := by
    have hne : name ≠ other := fun heq => Text.not_before_self other (heq ▸ hbefore)
    simp [keyLe, hne, hbefore]
  rcases h with rfl | h
  · rw [child_dot, child_dot, hname.sortKey_eq, hother.sortKey_eq, hlast]
  · rw [h.child_eq, h.child_eq, sortKey_join h.ne_empty hname, sortKey_join h.ne_empty hother,
      keyLe_append, hlast]

/-! ## Walked paths -/

/-- A relative path loses its way if its proper names go from single dots to an empty one. -/
theorem isLost_iff (hrelative : isAbsolute path = false) :
    isLost path = true ↔ ((properNames path).dropWhile (· = ".")).head? = some "" := by
  rw [isLost, hrelative]
  rcases names_cases path with ⟨hnames, hlast⟩ | hnames
  · rw [hnames]
    have hsuffix := List.dropWhile_suffix (l := properNames path) (· = ".")
    cases hrest : (properNames path).dropWhile (· = ".") with
    | nil => simp
    | cons name rest =>
      rw [hrest] at hsuffix
      cases rest with
      | nil =>
        have hname : name ≠ "" := by
          rintro rfl
          obtain ⟨lead, hlead⟩ := hsuffix
          exact hlast (hlead ▸ List.getLast?_concat)
        simp [hname]
      | cons other rest =>
        by_cases hname : name = ""
        · simp [hname]
        · simp [hname]
  · rw [hnames, List.dropWhile_append]
    cases hrest : (properNames path).dropWhile (· = ".") with
    | nil => simp
    | cons name rest =>
      by_cases hname : name = ""
      · cases rest <;> simp [hname]
      · simp [hname]

example : isLost ".//conf" = true ∧ isLost "./conf//" = false := by decide

/-- Whether names, walked from a path, put no empty one behind a single dot. -/
def KeepsWay (path : String) (names : List String) : Prop :=
  path = "." → (names.dropWhile (· = ".")).head? ≠ some ""

/-- Where a path goes on from the place itself, single dots are left behind. -/
theorem KeepsWay.tail {names : List String} (h : KeepsWay path (name :: names)) (htrail : IsTrail path)
    (hslash : '/' ∉ name.toList) : KeepsWay (child path name) names := by
  intro hdot
  rcases htrail with rfl | hleads
  · rw [child_dot] at hdot
    have hrest := h rfl
    rwa [hdot, List.dropWhile_cons_of_pos (by simp)] at hrest
  · exact absurd hdot (hleads.child hslash).ne_dot

theorem KeepsWay.head_ne_empty {names : List String} (h : KeepsWay path (name :: names)) (hdot : path = ".") :
    name ≠ "" := by
  rintro rfl
  exact h hdot rfl

/-- A path that grows by names that keep its way stays a trail, and grows by no more than these names. -/
theorem IsTrail.foldl_child (h : IsTrail path) {names : List String}
    (hslash : ∀ name ∈ names, '/' ∉ name.toList) (hkept : KeepsWay path names) :
    IsTrail (names.foldl Path.child path) ∧
      leadSize (names.foldl Path.child path) ≤ leadSize path + sizeOf names := by
  induction names generalizing path with
  | nil => exact ⟨h, Nat.le_refl _⟩
  | cons name names ih =>
    rw [List.forall_mem_cons] at hslash
    obtain ⟨htrail, hsize⟩ := ih (h.child hslash.1 hkept.head_ne_empty) hslash.2 (hkept.tail h hslash.1)
    have hstep := leadSize_child_le h hslash.1
    rw [sizeOf_cons]
    exact ⟨htrail, by rw [List.foldl_cons]; omega⟩

/-- The proper names of a path take no more bytes than what stands before a name that is put behind it. -/
theorem sizeOf_properNames (path : String) (hslash : '/' ∉ name.toList) :
    sizeOf (properNames path) + name.utf8ByteSize = (join path name).utf8ByteSize := by
  have hsize := sizeOf_names (join path name)
  rw [names_join path hslash, sizeOf_append, sizeOf_cons] at hsize
  have hnil : sizeOf [] = 0 := rfl
  omega

theorem mem_names_of_mem_properNames (h : name ∈ properNames path) : name ∈ names path := by
  rcases names_cases path with ⟨hnames, -⟩ | hnames
  · rwa [hnames]
  · rw [hnames]
    exact List.mem_append_left _ h

/-- No proper name of a path has a slash in it. -/
theorem slash_notMem_properNames (h : name ∈ properNames path) : '/' ∉ name.toList := by
  obtain ⟨piece, hpiece, rfl⟩ := List.mem_map.mp (mem_names_of_mem_properNames h)
  rw [String.toList_ofList]
  exact fun hc => (Text.mem_of_mem_pieces hpiece hc).2 rfl

/-- The proper names of an absolute path begin with the empty one before the first slash. -/
theorem properNames_of_isAbsolute (h : isAbsolute path = true) : ∃ rest, properNames path = "" :: rest := by
  obtain ⟨cs, hcs⟩ := List.head?_eq_some_iff.mp (isAbsolute_iff.mp h)
  have hnames : names path = "" :: (Text.pieces '/' cs).map String.ofList := by
    rw [names, hcs]
    rfl
  obtain ⟨p, ps, hpieces⟩ := List.exists_cons_of_ne_nil (Text.pieces_ne_nil '/' cs)
  rw [properNames, hnames, hpieces]
  split
  · exact ⟨_, rfl⟩
  · exact ⟨_, rfl⟩

/-- From the top a path is walked by the names after the first slash. -/
theorem walked_of_isAbsolute (h : isAbsolute path = true) {rest : List String}
    (hnames : properNames path = "" :: rest) : walked path = rest.foldl child "/" := by
  rw [walked, h, hnames]
  rfl

theorem walked_of_relative (h : isAbsolute path = false) :
    walked path = (properNames path).foldl child "." := by
  rw [walked, h]
  rfl

/-- A path that does not lose its way is walked as a trail, by no more bytes than stand before a name that is
put behind it. -/
theorem isTrail_walked (h : isLost path = false) :
    IsTrail (walked path) ∧ leadSize (walked path) ≤ sizeOf (properNames path) := by
  have hslash : ∀ name ∈ properNames path, '/' ∉ name.toList := fun _ => slash_notMem_properNames
  cases habsolute : isAbsolute path with
  | true =>
    obtain ⟨rest, hrest⟩ := properNames_of_isAbsolute habsolute
    rw [hrest, List.forall_mem_cons] at hslash
    have htop : IsTrail "/" := .inr (.inl rfl)
    rw [walked_of_isAbsolute habsolute hrest, hrest]
    exact htop.foldl_child hslash.2 fun hdot => absurd hdot (by decide)
  | false =>
    have hkept : KeepsWay "." (properNames path) := fun _ hempty =>
      absurd (h.symm.trans ((isLost_iff habsolute).mpr hempty)) (by decide)
    have hhere : IsTrail "." := .inl rfl
    obtain ⟨htrail, hsize⟩ := hhere.foldl_child hslash hkept
    rw [walked_of_relative habsolute]
    exact ⟨htrail, Nat.le_trans hsize (Nat.le_of_eq (Nat.zero_add _))⟩

/-- Walking to a path makes no path of a child longer. -/
theorem utf8ByteSize_child_walked_le (h : isLost path = false) (hslash : '/' ∉ name.toList) :
    (child (walked path) name).utf8ByteSize ≤ (join path name).utf8ByteSize := by
  obtain ⟨htrail, hsize⟩ := isTrail_walked h
  rw [utf8ByteSize_child htrail hslash, ← sizeOf_properNames path hslash]
  exact Nat.add_le_add_right hsize _

end Path

/-- A file whose path the system takes is found unless the root loses its way. -/
theorem Glob.canFind_iff {root name : String} (hslash : '/' ∉ name.toList)
    (hfits : (Path.join root name).utf8ByteSize ≤ FileSystem.pathLimit) :
    canFind root name = true ↔ Path.isLost root = false := by
  rw [canFind, Bool.and_eq_true, Bool.not_eq_true', decide_eq_true_iff]
  exact and_iff_left_of_imp fun hkept =>
    Nat.le_trans (Path.utf8ByteSize_child_walked_le hkept hslash) hfits

/-! ## Places -/

namespace FileSystem

variable {fs : FileSystem} {path name : String} {here : Place}

/-- The single dot leads to where paths start. -/
theorem eq_start_of_locate_dot (h : fs.locate "." = .ok here) : here = fs.start := by
  obtain ⟨-, -, -, hwalk⟩ := locate_eq_ok_iff.mp h
  have hstep : fs.step fs.start "." = .ok here := by
    rw [show Path.names "." = [] ++ ["."] from rfl, walk_concat rfl] at hwalk
    exact hwalk
  rw [step, entryAt_of_step hstep] at hstep
  exact (Except.ok.inj hstep).symm

/-- A walk of one name or more begins at a folder. -/
theorem entryAt_of_walk {names : List String} {start : Place} (hne : names ≠ [])
    (h : names.foldlM fs.step start = .ok here) : fs.entryAt start = some .folder := by
  obtain ⟨name, names, rfl⟩ := List.exists_cons_of_ne_nil hne
  rw [List.foldlM_cons] at h
  cases hstep : fs.step start name with
  | error cause =>
    rw [hstep] at h
    cases h
  | ok next => exact entryAt_of_step hstep

theorem locate_dot (h : fs.entryAt fs.start = some .folder) : fs.locate "." = .ok fs.start := by
  have hstep : fs.step fs.start "." = .ok fs.start := by
    rw [step, h]
    rfl
  refine locate_eq_ok_iff.mpr ⟨by decide, by decide, by decide, ?_⟩
  rw [show Path.names "." = [] ++ ["."] from rfl, walk_concat rfl]
  exact hstep

/-- The path of a child leads where one step by its name leads, unless it is too long. -/
theorem locate_child (h : Path.IsTrail path) (hslash : '/' ∉ name.toList)
    (hnul : '\x00' ∉ name.toList) (hkept : path = "." → name ≠ "") (hpath : fs.locate path = .ok here) :
    fs.locate (Path.child path name) =
      if pathLimit < (Path.child path name).utf8ByteSize then .error .nameTooLong
      else fs.step here name := by
  rcases h with rfl | h
  · rw [Path.child_dot, eq_start_of_locate_dot hpath, locate, if_neg (by simpa using ⟨hkept rfl, hnul⟩),
      Path.isAbsolute_eq_false hslash, Path.names_of_notMem hslash]
    exact congrArg (ite _ _) (bind_pure (fs.step fs.start name))
  · rw [h.child_eq, locate_join_eq hslash hnul hpath]

end FileSystem

end RouteFleet
