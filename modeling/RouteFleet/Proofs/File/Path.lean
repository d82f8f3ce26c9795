import RouteFleet.File.System
import RouteFleet.Proofs.Text.Split

/-! # Paths of what lies in a folder

The path of a folder and a name in it are joined to a path. It begins where the folder's does
(`Path.isAbsolute_join`), moves by the same steps and by the name (`Path.steps_join`), leads where one step
from the place of the folder leads (`FileSystem.locate_join`), and is read for an identity by the name
alone (`RouteId.ofPath?_join`), however the folder's path is spelled. The name with the ending of routes'
files is read as the identity before the ending, or as all of it where nothing stands before
(`RouteId.ofPath?_ending`).
-/

namespace RouteFleet

namespace Path

/-- Whether something in a folder can have a name. -/
structure IsName (name : String) : Prop where
  ne_empty : name ≠ ""
  ne_here : name ≠ "."
  ne_up : name ≠ ".."
  slash : '/' ∉ name.toList
  nul : '\x00' ∉ name.toList

instance : DecidablePred IsName := fun name =>
  decidable_of_iff
    (name ≠ "" ∧ name ≠ "." ∧ name ≠ ".." ∧ '/' ∉ name.toList ∧ '\x00' ∉ name.toList)
    ⟨fun ⟨hempty, hhere, hup, hslash, hnul⟩ => ⟨hempty, hhere, hup, hslash, hnul⟩,
      fun h => ⟨h.ne_empty, h.ne_here, h.ne_up, h.slash, h.nul⟩⟩

/-! ## Joined paths -/

section Join

variable {base name : String}

theorem isAbsolute_iff {path : String} : isAbsolute path = true ↔ path.toList.head? = some '/' := by
  rw [isAbsolute, Text.beginsWith, List.isPrefixOf_iff_prefix]
  constructor
  · rintro ⟨rest, hrest⟩
    rw [← hrest]
    rfl
  · intro h
    obtain ⟨rest, hrest⟩ := List.head?_eq_some_iff.mp h
    rw [hrest]
    exact ⟨rest, rfl⟩

theorem join_empty (path : String) : join "" path = path := by
  rw [join]
  split
  · rfl
  · exact String.empty_append

/-- What has no slash in it does not begin at the top. -/
theorem isAbsolute_eq_false (h : '/' ∉ name.toList) : isAbsolute name = false := by
  rw [Bool.eq_false_iff, Ne, isAbsolute_iff]
  exact fun hhead => h (List.mem_of_head? hhead)

/-- A name is put behind a path with a slash between them, which may be the path's own. -/
theorem join_cases (base : String) (h : '/' ∉ name.toList) : (base = "" ∧ join base name = name) ∨
    ∃ lead, (join base name).toList = lead ++ '/' :: name.toList ∧
      (base.toList = lead ∧ lead ≠ [] ∧ lead.getLast? ≠ some '/' ∨ base.toList = lead ++ ['/']) := by
  have hrelative := isAbsolute_eq_false h
  rw [join, hrelative]
  by_cases hempty : base = ""
  · subst hempty
    exact .inl ⟨rfl, String.empty_append⟩
  · refine .inr ?_
    cases hends : Text.endsWith "/" base with
    | true =>
      obtain ⟨lead, hlead⟩ := List.isSuffixOf_iff_suffix.mp hends
      refine ⟨lead, ?_, .inr hlead.symm⟩
      simp [← hlead]
    | false =>
      refine ⟨base.toList, ?_, .inl ⟨rfl, ?_, ?_⟩⟩
      · simp [hempty]
      · rwa [Ne, String.toList_eq_nil_iff]
      · intro hlast
        obtain ⟨lead, hlead⟩ := List.getLast?_eq_some_iff.mp hlast
        have hsuffix : Text.endsWith "/" base = true :=
          List.isSuffixOf_iff_suffix.mpr ⟨lead, hlead.symm⟩
        exact absurd (hends.symm.trans hsuffix) (by decide)

theorem suffix_join (base : String) (h : '/' ∉ name.toList) : name.toList <:+ (join base name).toList := by
  rcases join_cases base h with ⟨-, hjoin⟩ | ⟨lead, hjoin, -⟩
  · exact ⟨[], by rw [hjoin, List.nil_append]⟩
  · rw [hjoin]
    exact ⟨lead ++ ['/'], by simp⟩

/-- What is neither in the name nor a slash is in a joined path if it is in the path of the folder. -/
theorem mem_toList_join (base : String) (h : '/' ∉ name.toList) {c : Char} (hname : c ∉ name.toList)
    (hslash : c ≠ '/') : c ∈ (join base name).toList ↔ c ∈ base.toList := by
  rcases join_cases base h with ⟨rfl, hjoin⟩ | ⟨lead, hjoin, ⟨hbase, -, -⟩ | hbase⟩
  · simp [hjoin, hname]
  · simp [hjoin, hbase, hname, hslash]
  · simp [hjoin, hbase, hname, hslash]

theorem isAbsolute_join (base : String) (h : '/' ∉ name.toList) :
    isAbsolute (join base name) = isAbsolute base := by
  rw [Bool.eq_iff_iff, isAbsolute_iff, isAbsolute_iff]
  rcases join_cases base h with ⟨rfl, hjoin⟩ | ⟨lead, hjoin, ⟨hbase, hlead, -⟩ | hbase⟩
  · rw [hjoin]
    constructor
    · exact fun hhead => absurd (List.mem_of_head? hhead) h
    · exact nofun
  · obtain ⟨c, more, rfl⟩ := List.exists_cons_of_ne_nil hlead
    rw [hjoin, hbase]
    rfl
  · rw [hjoin, hbase]
    cases lead <;> rfl

/-- A name is all the names of itself. -/
theorem names_of_notMem (h : '/' ∉ name.toList) : names name = [name] := by
  rw [names, Text.pieces_of_notMem h, List.map_singleton, String.ofList_toList]

/-- The names of a path are its proper ones, or these and an empty one after the last slash. -/
theorem names_cases (path : String) : names path = properNames path ∧ (properNames path).getLast? ≠ some "" ∨
    names path = properNames path ++ [""] := by
  rw [properNames]
  split
  · rename_i hlast
    obtain ⟨before, hnames⟩ := List.getLast?_eq_some_iff.mp hlast
    exact .inr (by rw [hnames, List.dropLast_concat])
  · rename_i hlast
    exact .inl ⟨rfl, hlast⟩

/-- The proper names of a path stand in what leads to the slash before a name that is put behind it. -/
theorem properNames_of_lead {lead : List Char}
    (h : base.toList = lead ∧ lead ≠ [] ∧ lead.getLast? ≠ some '/' ∨ base.toList = lead ++ ['/']) :
    properNames base = (Text.pieces '/' lead).map String.ofList := by
  rcases h with ⟨hlead, hnil, hlast⟩ | hlead
  · have hproper : (names base).getLast? ≠ some "" := by
      rw [names, hlead, List.getLast?_map]
      intro hempty
      obtain ⟨piece, hpiece, heq⟩ := Option.map_eq_some_iff.mp hempty
      obtain rfl : piece = [] := by rw [← @String.toList_ofList piece, heq]; rfl
      exact (Text.getLast?_of_getLast?_pieces hpiece).elim hnil hlast
    rw [properNames, if_neg hproper, names, hlead]
  · have hnames : names base = (Text.pieces '/' lead).map String.ofList ++ [""] := by
      rw [names, hlead, Text.pieces_append_cons, List.map_append]
      rfl
    rw [properNames, hnames, List.getLast?_concat, if_pos rfl, List.dropLast_concat]

/-- The names of a joined path are the proper ones before and the last. -/
theorem names_join (base : String) (h : '/' ∉ name.toList) :
    names (join base name) = properNames base ++ [name] := by
  rcases join_cases base h with ⟨rfl, hjoin⟩ | ⟨lead, hjoin, hlead⟩
  · rw [hjoin]
    exact names_of_notMem h
  · rw [properNames_of_lead hlead, ← names_of_notMem h, names, hjoin, Text.pieces_append_cons,
      List.map_append]
    rfl

/-- A joined path moves as the path of the folder and then as the name. -/
theorem steps_join_eq (base : String) (h : '/' ∉ name.toList) :
    steps (join base name) = steps base ++ steps name := by
  rw [steps, steps, steps, names_join base h, names_of_notMem h, List.filter_append]
  rcases names_cases base with ⟨hbase, -⟩ | hbase
  · rw [hbase]
  · rw [hbase, List.filter_append]
    exact congrArg (· ++ _) (List.append_nil _).symm

theorem IsName.steps_eq (h : IsName name) : steps name = [name] := by
  rw [steps, names_of_notMem h.slash]
  exact List.filter_cons_of_pos (by simp [h.ne_empty, h.ne_here])

theorem steps_join (base : String) (h : IsName name) : steps (join base name) = steps base ++ [name] := by
  rw [steps_join_eq base h.slash, h.steps_eq]

theorem fileName?_join (base : String) (h : IsName name) : fileName? (join base name) = some name := by
  rw [fileName?, steps_join base h, List.getLast?_concat]
  split
  · rename_i hlast
    exact absurd (Option.some.inj hlast) h.ne_up
  · rfl

/-- A name is the last name of itself. -/
theorem IsName.fileName?_eq (h : IsName name) : fileName? name = some name := by
  rw [← join_empty name, fileName?_join "" h, join_empty]

end Join

end Path

/-! ## Identities in paths -/

namespace RouteId

theorem ofPath?_join (base : String) {name : String} (h : Path.IsName name) :
    ofPath? (Path.join base name) = ofPath? name := by
  rw [ofPath?, ofPath?, Path.fileStem?, Path.fileStem?, Path.fileName?_join base h, h.fileName?_eq]

/-- What stands before the ending is the identity; where nothing does, all of the name is. -/
theorem ofPath?_ending {key : String} (h : Path.IsName (key ++ fileEnding)) :
    ofPath? (key ++ fileEnding) = some ⟨if key = "" then fileEnding else key⟩ := by
  have hsplit : Text.splitLast '.' (key ++ fileEnding) = some (key, "yaml") := by
    have hparts := @Text.splitLast_append '.' "yaml" (by decide) key
    rwa [String.append_assoc] at hparts
  have hstem : Path.stem (key ++ fileEnding) = if key = "" then fileEnding else key := by
    rw [Path.stem, hsplit]
    by_cases hkey : key = ""
    · subst hkey
      exact String.empty_append
    · exact (if_neg hkey).trans (if_neg hkey).symm
  have hsome : (if key = "" then fileEnding else key) ≠ "" := by
    split
    · decide
    · assumption
  rw [ofPath?, Path.fileStem?, h.fileName?_eq, Option.map_some, hstem]
  split
  · rename_i heq
    exact absurd (Option.some.inj heq) hsome
  · rename_i stem _ heq
    rw [Option.some.inj heq]
  · rename_i heq
    cases heq

end RouteId

/-! ## Places of paths -/

namespace FileSystem

variable {fs : FileSystem} {base name : String} {place here next : Place}

/-- A step leads somewhere only from a folder. -/
theorem entryAt_of_step (h : fs.step here name = .ok next) : fs.entryAt here = some .folder := by
  rw [step] at h
  split at h
  · cases h
  · cases h
  · assumption

/-- An empty name stays where it is. -/
theorem eq_of_step_empty (h : fs.step here "" = .ok next) : next = here := by
  rw [step, entryAt_of_step h] at h
  exact (Except.ok.inj h).symm

/-- A name that something in a folder can have leads to what has it. -/
theorem eq_of_step (hname : Path.IsName name) (h : fs.step here name = .ok next) :
    next = here ++ [name] := by
  rw [step, entryAt_of_step h] at h
  have hmoves : ¬ (decide (name = "") || decide (name = ".")) = true := by
    simp [hname.ne_empty, hname.ne_here]
  dsimp only at h
  rw [if_neg hmoves, if_neg hname.ne_up] at h
  split at h
  · cases h
  · exact (Except.ok.inj h).symm

/-- A walk ends where its last step leads. -/
theorem walk_concat {before : List String} {start : Place} (h : before.foldlM fs.step start = .ok here) :
    (before ++ [name]).foldlM fs.step start = fs.step here name := by
  rw [List.foldlM_append, h]
  exact bind_pure (fs.step here name)

/-- A path that leads somewhere is not empty, has no character in it that no path has, and is not too
long; and the walk along its names leads there. -/
theorem locate_eq_ok_iff {path : String} : fs.locate path = .ok place ↔
    path ≠ "" ∧ '\x00' ∉ path.toList ∧ path.utf8ByteSize ≤ pathLimit ∧
      (Path.names path).foldlM fs.step (if Path.isAbsolute path then [] else fs.start) = .ok place := by
  rw [locate]
  by_cases hempty : path = ""
  · simp [hempty]
  by_cases hnul : '\x00' ∈ path.toList
  · simp [hnul]
  by_cases hlong : pathLimit < path.utf8ByteSize
  · simp [hempty, hnul, hlong, Nat.not_le.mpr hlong]
  · simp [hempty, hnul, hlong, Nat.le_of_not_lt hlong]

/-- A slash at the end of a path is one more step, which stays where it is. -/
theorem walk_properNames {start : Place} (h : (Path.names base).foldlM fs.step start = .ok place) :
    (Path.properNames base).foldlM fs.step start = .ok place := by
  rcases Path.names_cases base with ⟨hnames, -⟩ | hnames
  · rwa [hnames] at h
  · rw [hnames] at h
    cases hfold : (Path.properNames base).foldlM fs.step start with
    | error e =>
      rw [List.foldlM_append, hfold] at h
      cases h
    | ok here =>
      rw [walk_concat hfold] at h
      rw [eq_of_step_empty h]

/-- A joined path leads where one step from the place of the folder leads, unless it is too long. -/
theorem locate_join_eq (hslash : '/' ∉ name.toList) (hnul : '\x00' ∉ name.toList)
    (hroot : fs.locate base = .ok place) : fs.locate (Path.join base name) =
      if pathLimit < (Path.join base name).utf8ByteSize then .error .nameTooLong
      else fs.step place name := by
  obtain ⟨hne, hbasenul, -, hwalk⟩ := locate_eq_ok_iff.mp hroot
  have hclean : Path.join base name ≠ "" ∧ '\x00' ∉ (Path.join base name).toList := by
    rcases Path.join_cases base hslash with ⟨hempty, -⟩ | ⟨lead, hchars, hlead⟩
    · exact absurd hempty hne
    · have hleadnul : '\x00' ∉ lead := by
        rcases hlead with ⟨hlead, -, -⟩ | hlead
        · rwa [← hlead]
        · rw [hlead, List.mem_append, not_or] at hbasenul
          exact hbasenul.1
      constructor
      · rw [Ne, ← String.toList_eq_nil_iff, hchars]
        exact List.append_ne_nil_of_right_ne_nil _ (List.cons_ne_nil _ _)
      · rw [hchars, List.mem_append, List.mem_cons, not_or, not_or]
        exact ⟨hleadnul, by decide, hnul⟩
  rw [locate, if_neg (by simpa using hclean), Path.names_join base hslash, Path.isAbsolute_join base hslash,
    walk_concat (walk_properNames hwalk)]

/-- A joined path that leads somewhere leads where one step from the place of the folder leads. -/
theorem locate_join (hname : Path.IsName name) (hroot : fs.locate base = .ok place)
    (h : fs.locate (Path.join base name) = .ok next) : fs.step place name = .ok next := by
  rw [locate_join_eq hname.slash hname.nul hroot] at h
  split at h
  · cases h
  · exact h

end FileSystem

end RouteFleet
