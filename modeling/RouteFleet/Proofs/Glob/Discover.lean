import RouteFleet.Proofs.File.System
import RouteFleet.Proofs.Glob.Pattern
import RouteFleet.Proofs.Glob.Walk

/-! # Discovery takes its root literally

What is found under a root are the files with the ending that lie directly in the folder to which the root
leads, each once and in the order of their names, whatever characters the root is made of: a part of the
pattern that stands for one of the root's names leads to what one step by that name leads to
(`Glob.stepTo_exact`), so all parts together lead to the one folder (`Glob.expand_exact`), of which the last
part gives the listing (`Glob.isListing_of_isWalk`).

Two things are not found (`Glob.discover_literal`). A file is looked up by its path, which the system must
take as one; and a root that goes from the place itself to a doubled slash loses its way (`Path.isLost`): the
empty name between the slashes is looked up by itself, where nothing is.
-/

namespace RouteFleet

namespace Glob

open FileSystem

variable {fs : FileSystem}

/-! ## One part -/

section Step

variable {path name : String} {here next : Place}

theorem namesIn_eq (hpath : fs.locate path = .ok here) (hfolder : fs.entryAt here = some .folder) :
    fs.namesIn path = (fs.children here).keys := by
  rw [namesIn, folder_eq hpath hfolder]

/-- A folder has a name only once. -/
theorem filter_keys_eq_singleton {α : Type} {entries : Dict α} {p : String → Bool}
    (hmem : name ∈ entries.keys) (h : ∀ other, p other = true ↔ other = name) :
    entries.keys.filter p = [name] := by
  have hp : p = (· == name) := funext fun other => by rw [Bool.eq_iff_iff, h, beq_iff_eq]
  rw [hp, List.filter_beq, (Dict.nodup_keys entries).count, if_pos hmem]
  rfl

/-- The part that stands for one name leads to what one step by the name leads to. -/
theorem stepTo_exact (htrail : Path.IsTrail path) (hpath : fs.locate path = .ok here)
    (hstep : fs.step here name = .ok next) (hnext : fs.entryAt next = some .folder)
    (hslash : '/' ∉ name.toList) (hnul : '\x00' ∉ name.toList) (hkept : path = "." → name ≠ "")
    (hsize : (Path.child path name).utf8ByteSize ≤ pathLimit) :
    stepTo fs path (exact name.toList) = [Path.child path name] := by
  have hfolder : fs.isFolder path = true := (isFolder_iff hpath).mpr (entryAt_of_step hstep)
  have hchild : fs.locate (Path.child path name) = .ok next := by
    rw [locate_child htrail hslash hnul hkept hpath, if_neg (Nat.not_lt.mpr hsize), hstep]
  rw [stepTo]
  rcases literal?_exact name.toList with hliteral | ⟨hnone, hne, hdot, hup⟩
  · have hthere : fs.isThere (Path.child path name) = true := (isThere_iff hchild).mpr ⟨_, hnext⟩
    simp [hliteral, hfolder, hthere]
  · have hname : Path.IsName name :=
      ⟨fun h => hne (by rw [h]; rfl), fun h => hdot (by rw [h]; rfl), fun h => hup (by rw [h]; rfl),
        hslash, hnul⟩
    have haccepts : ∀ other : String, accepts (exact name.toList) other.toList = true ↔ other = name :=
      fun other => accepts_exact_iff.trans String.toList_inj
    have hdots : dotNames (exact name.toList) = [] := by
      have hnot : ∀ other ∈ ["..", "."], accepts (exact name.toList) other.toList = false := by
        intro other hother
        rw [Bool.eq_false_iff, Ne, haccepts]
        rintro rfl
        rcases List.mem_cons.mp hother with h | h
        · exact hname.ne_up h
        · exact hname.ne_here (List.mem_singleton.mp h)
      unfold dotNames
      split
      · exact List.filter_eq_nil_iff.mpr fun other hother => by rw [hnot other hother]; exact nofun
      · rfl
    obtain rfl := eq_of_step hname hstep
    have hmem : name ∈ (fs.children here).keys := mem_keys_children_iff.mpr ⟨_, hnext⟩
    rw [hnone, hdots, namesIn_eq hpath (entryAt_of_step hstep), filter_keys_eq_singleton hmem haccepts]
    simp [hfolder]

/-- From a single dot an empty name leads nowhere. -/
theorem stepTo_lost (fs : FileSystem) : stepTo fs "." (exact []) = [] := by
  have hempty : fs.isThere "" = false := rfl
  have hchild : Path.child "." (String.ofList []) = "" := Path.child_dot _
  rw [stepTo, show literal? (exact []) = some [] from rfl]
  dsimp only
  rw [hchild, hempty]
  rfl

end Step

/-! ## The parts of a root -/

section Root

variable {path : String} {names : List String} {here place : Place} {parts : List Part}

/-- A path that is walked by the parts that stand for names. -/
structure IsWalk (fs : FileSystem) (path : String) (place : Place) : Prop where
  isTrail : Path.IsTrail path
  locate : fs.locate path = .ok place

/-- A step takes a walk to the path of the child. -/
theorem IsWalk.child {name : String} {next : Place} (h : IsWalk fs path here)
    (hstep : fs.step here name = .ok next) (hslash : '/' ∉ name.toList)
    (hnul : '\x00' ∉ name.toList) (hkept : path = "." → name ≠ "")
    (hfits : (Path.child path name).utf8ByteSize ≤ pathLimit) :
    IsWalk fs (Path.child path name) next where
  isTrail := h.isTrail.child hslash hkept
  locate := by
    rw [locate_child h.isTrail hslash hnul hkept h.locate, if_neg (Nat.not_lt.mpr hfits), hstep]

/-- The parts that stand for the names of a walk lead to the one path that grows by these names. -/
theorem expand_exact (hpath : IsWalk fs path here)
    (hwalk : names.foldlM fs.step here = .ok place) (hplace : fs.entryAt place = some .folder)
    (hnames : ∀ name ∈ names, '/' ∉ name.toList ∧ '\x00' ∉ name.toList)
    (hkept : Path.KeepsWay path names)
    (hsize : Path.leadSize path + Path.sizeOf names ≤ pathLimit + 1) :
    expand fs (names.map partOf ++ parts) path = expand fs parts (names.foldl Path.child path) ∧
      IsWalk fs (names.foldl Path.child path) place := by
  induction names generalizing path here with
  | nil =>
    obtain rfl : here = place := Except.ok.inj hwalk
    exact ⟨rfl, hpath⟩
  | cons name names ih =>
    obtain ⟨hslash, hnul⟩ := hnames name List.mem_cons_self
    rw [Path.sizeOf_cons] at hsize
    rw [List.foldlM_cons] at hwalk
    cases hstep : fs.step here name with
    | error cause =>
      rw [hstep] at hwalk
      cases hwalk
    | ok next =>
      rw [hstep] at hwalk
      have hrest : names.foldlM fs.step next = .ok place := hwalk
      have hnext : fs.entryAt next = some .folder := by
        by_cases hnil : names = []
        · subst hnil
          obtain rfl : next = place := Except.ok.inj hrest
          exact hplace
        · exact entryAt_of_walk hnil hrest
      have hempty := hkept.head_ne_empty
      have hchildSize := Path.utf8ByteSize_child hpath.isTrail hslash
      have hchildLead := Path.leadSize_child_le hpath.isTrail hslash
      have hfits : (Path.child path name).utf8ByteSize ≤ pathLimit := by omega
      obtain ⟨hexpand, hpath'⟩ := ih (hpath.child hstep hslash hnul hempty hfits) hrest
        (fun other hother => hnames other (List.mem_cons_of_mem name hother))
        (hkept.tail hpath.isTrail hslash) (by omega)
      refine ⟨?_, hpath'⟩
      rw [List.map_cons, List.cons_append, partOf, expand,
        stepTo_exact hpath.isTrail hpath.locate hstep hnext hslash hnul hempty hfits,
        List.flatMap_singleton, hexpand, List.foldl_cons]

/-- Names that go from single dots to an empty one lead nowhere. -/
theorem expand_lost (h : (names.dropWhile (· = ".")).head? = some "") :
    expand fs (names.map partOf ++ parts) "." = [] := by
  induction names with
  | nil => cases h
  | cons name names ih =>
    rw [List.map_cons, List.cons_append, partOf, expand]
    by_cases hdot : name = "."
    · subst hdot
      rw [List.dropWhile_cons_of_pos (by simp)] at h
      have hstep : stepTo fs "." (exact ".".toList) = if fs.isFolder "." then ["."] else [] := rfl
      rw [hstep]
      split
      · rw [List.flatMap_singleton, ih h]
      · rfl
    · rw [List.dropWhile_cons_of_neg (by simpa using hdot)] at h
      obtain rfl : name = "" := Option.some.inj h
      rw [show exact "".toList = exact [] from rfl, stepTo_lost, List.flatMap_nil]

/-- A pattern under a root is escaped up to where it begins. -/
theorem toList_resolve {root pattern : String} (hroot : root ≠ "") (hslash : '/' ∉ pattern.toList) :
    ∃ lead, (resolve root pattern).toList = lead.flatMap escapeChar ++ '/' :: pattern.toList ∧
      (root.toList = lead ∧ lead ≠ [] ∧ lead.getLast? ≠ some '/' ∨ root.toList = lead ++ ['/']) := by
  have hescape : (escape root).toList = root.toList.flatMap escapeChar := String.toList_ofList
  have hslashes : ∀ lead : List Char, (lead ++ ['/']).flatMap escapeChar =
      lead.flatMap escapeChar ++ ['/'] := fun lead => List.flatMap_append
  rcases Path.join_cases root hslash with ⟨hempty, -⟩ | ⟨lead, -, hlead⟩
  · exact absurd hempty hroot
  refine ⟨lead, ?_, hlead⟩
  rcases Path.join_cases (escape root) hslash with ⟨hempty, -⟩ | ⟨escaped, hjoin, hescaped⟩
  · obtain ⟨c, cs, hcs⟩ := List.exists_cons_of_ne_nil (mt String.toList_eq_nil_iff.mp hroot)
    rw [← String.toList_eq_nil_iff, hescape, hcs, List.flatMap_cons, List.append_eq_nil_iff] at hempty
    rcases escapeChar_cases c with ⟨hc, -⟩ | ⟨hc, -⟩ <;> cases hc.symm.trans hempty.1
  rw [resolve, hjoin, List.append_cancel_right_eq]
  rw [hescape] at hescaped
  -- A slash at the root's end is one at the end of the escaped root, and no other is.
  rcases hlead with ⟨hlead, -, hlast⟩ | hlead <;> rcases hescaped with ⟨hescaped, -, hend⟩ | hescaped
  · rw [← hescaped, hlead]
  · refine absurd (getLast?_escape.mp ?_) hlast
    rw [← hlead, hescaped, List.getLast?_concat]
  · refine absurd (getLast?_escape.mpr ?_) (hescaped ▸ hend)
    rw [hlead, List.getLast?_concat]
  · rw [hlead, hslashes, List.append_cancel_right_eq] at hescaped
    exact hescaped.symm

/-- A pattern that does not end with a slash leads where its parts lead, from the top or from the place
itself. -/
theorem paths?_of_cons {pattern : String} {rest : List Char} (hends : Text.endsWith "/" pattern = false)
    (h : pattern.toList = '/' :: rest) :
    paths? fs pattern = (parts? rest).map fun parts => expand fs parts "/" := by
  rw [paths?, hends, h]
  exact @bind_pure Option _ _ _ _

theorem paths?_of_head? {pattern : String} (hends : Text.endsWith "/" pattern = false)
    (h : pattern.toList.head? ≠ some '/') :
    paths? fs pattern = (parts? pattern.toList).map fun parts => expand fs parts "." := by
  rw [paths?, hends]
  split
  · rename_i heq
    exact absurd (by rw [heq]; rfl) h
  · exact @bind_pure Option _ _ _ _

/-- What ends with a name after a slash does not end with a slash. -/
theorem endsWith_slash_eq_false {pattern s : String} {lead : List Char} (hne : pattern.toList ≠ [])
    (hslash : '/' ∉ pattern.toList) (h : s.toList = lead ++ '/' :: pattern.toList) :
    Text.endsWith "/" s = false := by
  rw [Bool.eq_false_iff]
  intro hends
  obtain ⟨rest, hrest⟩ := List.isSuffixOf_iff_suffix.mp hends
  have hlast := congrArg List.getLast? (h.symm.trans hrest.symm)
  obtain ⟨last, hpattern⟩ := Option.ne_none_iff_exists'.mp (mt List.getLast?_eq_none_iff.mp hne)
  rw [show "/".toList = ['/'] from rfl, List.getLast?_concat, List.getLast?_append, List.getLast?_cons,
    hpattern] at hlast
  exact hslash (Option.some.inj hlast ▸ List.mem_of_getLast? hpattern)

section Lead

variable {root pattern : String} {lead : List Char}

theorem isAbsolute_iff_of_lead
    (h : root.toList = lead ∧ lead ≠ [] ∧ lead.getLast? ≠ some '/' ∨ root.toList = lead ++ ['/']) :
    Path.isAbsolute root = true ↔ lead = [] ∨ lead.head? = some '/' := by
  rw [Path.isAbsolute_iff]
  rcases h with ⟨hlead, hnil, -⟩ | hlead
  · rw [hlead]
    exact (or_iff_right hnil).symm
  · rw [hlead]
    cases lead <;> simp

/-- From the top, a pattern of one part leads there and then by the names after the first slash. -/
theorem paths?_of_absolute (fs : FileSystem) {part : Part} {s : String} (hne : pattern.toList ≠ [])
    (hslash : '/' ∉ pattern.toList) (hpart : Part.ofChars? pattern.toList = some part)
    (h : s.toList = lead.flatMap escapeChar ++ '/' :: pattern.toList)
    (habsolute : lead = [] ∨ lead.head? = some '/') : ∃ names,
      (Text.pieces '/' lead).map String.ofList = "" :: names ∧
        paths? fs s = some (expand fs (names.map partOf ++ [part]) "/") := by
  have hends := endsWith_slash_eq_false hne hslash h
  cases lead with
  | nil =>
    have hpieces : piecesOf pattern.toList = [pattern.toList] := by
      rw [piecesOf, Text.pieces_of_notMem hslash]
      rfl
    have hparts : parts? pattern.toList = some [part] := by
      rw [parts?, hpieces, List.mapM_cons, hpart]
      rfl
    exact ⟨[], rfl, by rw [paths?_of_cons hends h, hparts]; rfl⟩
  | cons c lead =>
    obtain rfl : c = '/' := by simpa using habsolute
    have hrest : s.toList = '/' :: (lead.flatMap escapeChar ++ '/' :: pattern.toList) := h
    refine ⟨(Text.pieces '/' lead).map String.ofList, rfl, ?_⟩
    rw [paths?_of_cons hends hrest, parts?_escape hne hslash hpart]
    rfl

/-- From the place itself, it leads by all names. -/
theorem paths?_of_relative (fs : FileSystem) {part : Part} {s : String} (hne : pattern.toList ≠ [])
    (hslash : '/' ∉ pattern.toList) (hpart : Part.ofChars? pattern.toList = some part)
    (h : s.toList = lead.flatMap escapeChar ++ '/' :: pattern.toList)
    (hrelative : ¬ (lead = [] ∨ lead.head? = some '/')) : paths? fs s =
      some (expand fs (((Text.pieces '/' lead).map String.ofList).map partOf ++ [part]) ".") := by
  have hends := endsWith_slash_eq_false hne hslash h
  obtain ⟨c, cs, rfl⟩ := List.exists_cons_of_ne_nil fun hnil => hrelative (.inl hnil)
  have hc : c ≠ '/' := fun hc => hrelative (.inr (congrArg some hc))
  have hfirst : s.toList.head? ≠ some '/' := by
    rw [h, List.flatMap_cons]
    rcases escapeChar_cases c with ⟨hescape, -⟩ | ⟨hescape, -⟩ <;> rw [hescape] <;> simp [hc]
  rw [paths?_of_head? hends hfirst, h, parts?_escape hne hslash hpart]
  rfl

end Lead

/-- A pattern of one part under a root leads where the parts that stand for the root's names lead, and then
that part. An empty name, where the root ends with a slash, makes way. -/
theorem paths?_resolve (fs : FileSystem) {root pattern : String} {part : Part} (hroot : root ≠ "")
    (hne : pattern.toList ≠ []) (hslash : '/' ∉ pattern.toList)
    (hpart : Part.ofChars? pattern.toList = some part) :
    (Path.isAbsolute root = true ∧ ∃ names, Path.properNames root = "" :: names ∧
        paths? fs (resolve root pattern) = some (expand fs (names.map partOf ++ [part]) "/")) ∨
      (Path.isAbsolute root = false ∧ paths? fs (resolve root pattern) =
        some (expand fs ((Path.properNames root).map partOf ++ [part]) ".")) := by
  obtain ⟨lead, hresolve, hlead⟩ := toList_resolve hroot hslash
  have habsolute := isAbsolute_iff_of_lead hlead
  rw [Path.properNames_of_lead hlead]
  by_cases htop : lead = [] ∨ lead.head? = some '/'
  · exact .inl ⟨habsolute.mpr htop, paths?_of_absolute fs hne hslash hpart hresolve htop⟩
  · refine .inr ⟨?_, paths?_of_relative fs hne hslash hpart hresolve htop⟩
    rw [Bool.eq_false_iff, Ne, habsolute]
    exact htop

end Root

/-! ## Whole roots -/

section Discovery

variable {root path : String} {place : Place}

/-- The ending of the files that are looked for, after a star. -/
def anyFile : Part := .name (.many :: exact RouteId.fileEnding.toList)

/-- What lies in a folder are the files that discovery finds by these names under the folder's path. -/
structure IsListing (fs : FileSystem) (place : Place) (folder : String) (names : List String) : Prop where
  /-- The names come in order, each once. -/
  ordered : names.Pairwise Text.Before
  /-- They are those of the files with the ending, unless a file's path is too long to be looked up. -/
  mem_iff : ∀ name, name ∈ names ↔ Text.endsWith RouteId.fileEnding name = true ∧
    (∃ bytes, fs.entryAt (place ++ [name]) = some (.file bytes)) ∧
      (Path.child folder name).utf8ByteSize ≤ pathLimit
  /-- Each path leads to the file with the name, and to no other. -/
  locate : ∀ name ∈ names, fs.locate (Path.child folder name) = .ok (place ++ [name])

/-- In a folder a star with an ending leads to the names with the ending. -/
theorem stepTo_ending {ending : String} (h : fs.isFolder path = true) :
    stepTo fs path (.many :: exact ending.toList) =
      ((fs.namesIn path).filter fun name => Text.endsWith ending name).map (Path.child path) := by
  have haccepts : ∀ name : String, accepts (.many :: exact ending.toList) name.toList =
      Text.endsWith ending name := by
    intro name
    rw [Bool.eq_iff_iff, accepts_ending_iff, Text.endsWith, List.isSuffixOf_iff_suffix]
  have hliteral : literal? (.many :: exact ending.toList) = none := rfl
  have hdots : dotNames (.many :: exact ending.toList) = [] := rfl
  rw [stepTo, hliteral, hdots]
  simp only [haccepts]
  rw [if_pos h]
  rfl

/-- The names with the ending under which files are found below a path, in order. -/
def listed (fs : FileSystem) (path : String) : List String :=
  ((fs.namesIn path).filter fun name => Text.endsWith RouteId.fileEnding name).filter
    fun name => fs.isFile (Path.child path name)

theorem filter_expand_anyFile (h : fs.isFolder path = true) :
    (expand fs [anyFile] path).filter fs.isFile = (listed fs path).map (Path.child path) := by
  rw [anyFile, expand, stepTo_ending h]
  show (List.flatMap (fun found => [found]) _).filter fs.isFile = _
  rw [List.flatMap_singleton', List.filter_map]
  rfl

namespace IsWalk

variable (hfs : fs.HasNames) (hpath : IsWalk fs path place)
  (hplace : fs.entryAt place = some .folder)

include hfs hpath hplace

/-- The path of what lies in the folder leads to it, unless it is too long to be looked up. -/
theorem locate_child {name : String} {entry : Entry}
    (hentry : fs.entryAt (place ++ [name]) = some entry) : fs.locate (Path.child path name) =
      if pathLimit < (Path.child path name).utf8ByteSize then .error .nameTooLong
      else .ok (place ++ [name]) := by
  obtain ⟨hname, hsize⟩ := hfs.isName hentry
  rw [FileSystem.locate_child hpath.isTrail hname.slash hname.nul (fun _ => hname.ne_empty)
    hpath.locate, step_of_isName hplace hname hsize]

theorem isFile_child_iff {name : String} {entry : Entry}
    (hentry : fs.entryAt (place ++ [name]) = some entry) :
    fs.isFile (Path.child path name) = true ↔
      (∃ bytes, fs.entryAt (place ++ [name]) = some (.file bytes)) ∧
        (Path.child path name).utf8ByteSize ≤ pathLimit := by
  have hlocate := hpath.locate_child hfs hplace hentry
  by_cases hlong : pathLimit < (Path.child path name).utf8ByteSize
  · rw [if_pos hlong] at hlocate
    rw [isFile_eq_false_of_locate hlocate]
    simp [Nat.not_le.mpr hlong]
  · rw [if_neg hlong] at hlocate
    rw [isFile_iff hlocate]
    exact (and_iff_left (Nat.le_of_not_lt hlong)).symm

omit hfs in
theorem exists_entry_of_mem_listed {name : String} (h : name ∈ listed fs path) :
    ∃ entry, fs.entryAt (place ++ [name]) = some entry := by
  have hmem := (List.mem_filter.mp (List.mem_filter.mp h).1).1
  rw [namesIn_eq hpath.locate hplace] at hmem
  exact mem_keys_children_iff.mp hmem

omit hfs in
theorem pairwise_listed : (listed fs path).Pairwise Text.Before := by
  refine List.Pairwise.filter _ (List.Pairwise.filter _ ?_)
  rw [namesIn_eq hpath.locate hplace]
  exact List.pairwise_map.mpr (Dict.ascending _)

theorem mem_listed_iff {name : String} : name ∈ listed fs path ↔
    Text.endsWith RouteId.fileEnding name = true ∧
      (∃ bytes, fs.entryAt (place ++ [name]) = some (.file bytes)) ∧
        (Path.child path name).utf8ByteSize ≤ pathLimit := by
  constructor
  · intro hname
    obtain ⟨entry, hentry⟩ := hpath.exists_entry_of_mem_listed hplace hname
    obtain ⟨hlisted, hfile⟩ := List.mem_filter.mp hname
    exact ⟨(List.mem_filter.mp hlisted).2, (hpath.isFile_child_iff hfs hplace hentry).mp hfile⟩
  · rintro ⟨hends, ⟨bytes, hfile⟩, hsize⟩
    refine List.mem_filter.mpr ⟨List.mem_filter.mpr ⟨?_, hends⟩,
      (hpath.isFile_child_iff hfs hplace hfile).mpr ⟨⟨bytes, hfile⟩, hsize⟩⟩
    rw [namesIn_eq hpath.locate hplace]
    exact mem_keys_children_iff.mpr ⟨_, hfile⟩

theorem isListing : IsListing fs place path (listed fs path) where
  ordered := hpath.pairwise_listed hplace
  mem_iff _ := hpath.mem_listed_iff hfs hplace
  locate name hname := by
    obtain ⟨-, ⟨bytes, hfile⟩, hsize⟩ := (hpath.mem_listed_iff hfs hplace).mp hname
    rw [hpath.locate_child hfs hplace hfile, if_neg (Nat.not_lt.mpr hsize)]

end IsWalk

/-- What is found at the end of a walk is the folder's listing. -/
theorem isListing_of_isWalk (hfs : fs.HasNames) (hpath : IsWalk fs path place)
    (hplace : fs.entryAt place = some .folder) : ∃ names,
      ((expand fs [anyFile] path).filter fs.isFile).mergeSort
          (fun a b => Path.keyLe (Path.sortKey a) (Path.sortKey b)) = names.map (Path.child path) ∧
        IsListing fs place path names := by
  refine ⟨listed fs path, ?_, hpath.isListing hfs hplace⟩
  rw [filter_expand_anyFile ((isFolder_iff hpath.locate).mpr hplace)]
  refine List.mergeSort_of_pairwise (List.pairwise_map.mpr ?_)
  refine (hpath.pairwise_listed hplace).imp_of_mem fun {a b} ha hb hbefore => ?_
  obtain ⟨_, ha⟩ := hpath.exists_entry_of_mem_listed hplace ha
  obtain ⟨_, hb⟩ := hpath.exists_entry_of_mem_listed hplace hb
  exact Path.keyLe_sortKey_child hpath.isTrail (hfs.isName ha).1 (hfs.isName hb).1 hbefore

/-- The names of a path that leads somewhere can be parts of a pattern. -/
theorem clean_properNames (hroot : fs.locate root = .ok place) {name : String}
    (h : name ∈ Path.properNames root) : '/' ∉ name.toList ∧ '\x00' ∉ name.toList := by
  refine ⟨Path.slash_notMem_properNames h, ?_⟩
  obtain ⟨piece, hpiece, rfl⟩ := List.mem_map.mp (Path.mem_names_of_mem_properNames h)
  rw [String.toList_ofList]
  exact fun hc => (locate_eq_ok_iff.mp hroot).2.1 (Text.mem_of_mem_pieces hpiece hc).1

/-- A root loses its way, or its parts lead to the path by which it is walked. -/
theorem isWalk_walked (hroot : fs.locate root = .ok place) (hplace : fs.entryAt place = some .folder)
    {part : Part} {pattern : String} (hne : pattern.toList ≠ []) (hslash : '/' ∉ pattern.toList)
    (hpart : Part.ofChars? pattern.toList = some part) :
    (Path.isLost root = true ∧ paths? fs (resolve root pattern) = some []) ∨
      (Path.isLost root = false ∧ IsWalk fs (Path.walked root) place ∧
        paths? fs (resolve root pattern) = some (expand fs [part] (Path.walked root))) := by
  obtain ⟨hrootne, -, hlimit, hwalk⟩ := locate_eq_ok_iff.mp hroot
  have hproper := walk_properNames hwalk
  have hclean : ∀ name ∈ Path.properNames root, '/' ∉ name.toList ∧ '\x00' ∉ name.toList :=
    fun _ => clean_properNames hroot
  have hsize : Path.sizeOf (Path.properNames root) ≤ pathLimit + 1 := by
    have hjoin := Path.sizeOf_properNames root hslash
    rw [Path.utf8ByteSize_join hrootne hslash] at hjoin
    have hfits := Path.joinSize_le root
    omega
  rcases paths?_resolve fs hrootne hne hslash hpart with
    ⟨habsolute, names, hnames, hpaths⟩ | ⟨hrelative, hpaths⟩
  · refine .inr ⟨by rw [Path.isLost, habsolute]; rfl, ?_⟩
    rw [hnames] at hproper hclean hsize
    rw [habsolute] at hproper
    have htop : IsWalk fs "/" [] := ⟨.inr (.inl rfl), rfl⟩
    have hkept : Path.KeepsWay "/" names := fun hdot => absurd hdot (by decide)
    obtain ⟨hexpand, hpath⟩ := @expand_exact fs "/" names [] place [part] htop hproper hplace
      (fun name hname => hclean name (List.mem_cons_of_mem _ hname)) hkept hsize
    rw [Path.walked_of_isAbsolute habsolute hnames]
    exact ⟨hpath, by rw [hpaths, hexpand]⟩
  · rw [hrelative] at hwalk hproper
    by_cases hlost : Path.isLost root = true
    · refine .inl ⟨hlost, ?_⟩
      rw [hpaths, expand_lost ((Path.isLost_iff hrelative).mp hlost)]
    · refine .inr ⟨Bool.not_eq_true _ ▸ hlost, ?_⟩
      have hstart := locate_dot (entryAt_of_walk (Path.names_ne_nil root) hwalk)
      have hhere : IsWalk fs "." fs.start := ⟨.inl rfl, hstart⟩
      have hkept : Path.KeepsWay "." (Path.properNames root) := fun _ =>
        mt (Path.isLost_iff hrelative).mpr hlost
      obtain ⟨hexpand, hpath⟩ := @expand_exact fs "." _ fs.start place [part] hhere hproper hplace hclean
        hkept (Nat.le_trans (Nat.le_of_eq (Nat.zero_add _)) hsize)
      rw [Path.walked_of_relative hrelative]
      exact ⟨hpath, by rw [hpaths, hexpand]⟩

/-- Discovery finds nothing, or the listing of the folder to which the root leads. -/
theorem discover_cases (hfs : fs.HasNames) (hroot : fs.locate root = .ok place)
    (hplace : fs.entryAt place = some .folder) :
    (Path.isLost root = true ∧ discover fs root "*.yaml" = .ok []) ∨
      (Path.isLost root = false ∧ ∃ names, IsWalk fs (Path.walked root) place ∧
        discover fs root "*.yaml" = .ok (names.map (Path.child (Path.walked root))) ∧
          IsListing fs place (Path.walked root) names) := by
  rcases isWalk_walked hroot hplace (show "*.yaml".toList ≠ [] by decide) (by decide)
      (show Part.ofChars? "*.yaml".toList = some anyFile from rfl) with
    ⟨hlost, hpaths⟩ | ⟨hkept, hwalk, hpaths⟩
  · refine .inl ⟨hlost, ?_⟩
    rw [discover, hpaths]
    exact congrArg Except.ok List.mergeSort_nil
  · obtain ⟨names, hfound, hlisting⟩ := isListing_of_isWalk hfs hwalk hplace
    refine .inr ⟨hkept, names, hwalk, ?_, hlisting⟩
    rw [discover, hpaths]
    exact congrArg Except.ok hfound

/-- Discovery takes its root literally. In the folder to which a root leads it finds the files with the
ending, each once and in the order of their names, by paths that lead to these files and to no others and
are no longer than the root and the name; left out are only files whose path is too long for the system. A
root that loses its way finds nothing. -/
theorem discover_literal (hfs : fs.HasNames) (hroot : fs.locate root = .ok place)
    (hplace : fs.entryAt place = some .folder) :
    (Path.isLost root = true ∧ discover fs root "*.yaml" = .ok []) ∨
      (Path.isLost root = false ∧ ∃ folder names,
        discover fs root "*.yaml" = .ok (names.map (Path.child folder)) ∧
          IsListing fs place folder names ∧ fs.locate folder = .ok place ∧
            ∀ name, Path.IsName name →
              (Path.child folder name).utf8ByteSize ≤ (Path.join root name).utf8ByteSize) := by
  refine (discover_cases hfs hroot hplace).imp_right ?_
  rintro ⟨hkept, names, hwalk, hfound, hlisting⟩
  refine ⟨hkept, _, names, hfound, hlisting, hwalk.locate, fun name hname => ?_⟩
  exact Path.utf8ByteSize_child_walked_le hkept hname.slash

/-- Two folders, of which the one's name read as a pattern stands for the other's. -/
def siblings : FileSystem where
  entries := [
    (["dyn1"], .folder), (["dyn1", "a.yaml"], .file .empty),
    (["dyn[1]"], .folder), (["dyn[1]", "b.yaml"], .file .empty)]
  start := []

/-- In a folder with brackets in its name the file is found that lies there, and not the one in the folder
for which the name would stand as a pattern. -/
theorem discover_literal_siblings : siblings.HasNames ∧
    siblings.locate "dyn[1]" = .ok ["dyn[1]"] ∧ siblings.entryAt ["dyn[1]"] = some .folder ∧
      ∃ found, discover siblings "dyn[1]" "*.yaml" = .ok found ∧
        (∃ path ∈ found, siblings.locate path = .ok ["dyn[1]", "b.yaml"]) ∧
          ∀ path ∈ found, siblings.locate path ≠ .ok ["dyn1", "a.yaml"] := by
  have hnames : siblings.HasNames := by decide
  refine ⟨hnames, rfl, rfl, ?_⟩
  rcases @discover_literal siblings "dyn[1]" ["dyn[1]"] hnames rfl rfl with
    ⟨hlost, -⟩ | ⟨-, folder, names, hfound, hlisting, -, hsize⟩
  · exact absurd hlost (by decide)
  · have hname : Path.IsName "b.yaml" := by decide
    have hfits : (Path.child folder "b.yaml").utf8ByteSize ≤ pathLimit :=
      Nat.le_trans (hsize "b.yaml" hname) (by decide)
    have hmem : "b.yaml" ∈ names := (hlisting.mem_iff "b.yaml").mpr ⟨by decide, ⟨.empty, rfl⟩, hfits⟩
    refine ⟨_, hfound, ⟨_, List.mem_map_of_mem hmem, hlisting.locate _ hmem⟩, fun path hpath => ?_⟩
    obtain ⟨name, hname, rfl⟩ := List.mem_map.mp hpath
    rw [hlisting.locate name hname]
    simp

end Discovery

end Glob

end RouteFleet
