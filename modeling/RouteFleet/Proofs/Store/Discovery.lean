import Mathlib.Data.List.Sort
import RouteFleet.Proofs.Glob.Discover
import RouteFleet.Proofs.List
import RouteFleet.Proofs.Store.Listing

/-! # What a store lists is what discovery finds

A store lists what lies in its folder and can be found there. Discovery, which goes from a pattern to paths
and looks each of them up, finds the same files in the same order, and what is read from their paths is the
list (`Store.IsIn.list_eq_discover`): whatever the tree, the root and the names in the folder. Each path leads
to the file that it is listed for (`Store.IsIn.of_mem_discover`).
-/

namespace RouteFleet

/-! ## Folders as dictionaries -/

namespace FileSystem

variable {fs : FileSystem} {place : Place} {name : String} {entry : Entry}

/-- In a tree with distinct places, what a folder has under a name is what lies there. -/
theorem get?_children_iff (h : (fs.entries.map (·.1)).Nodup) :
    (fs.children place).get? name = some entry ↔ fs.entryAt (place ++ [name]) = some entry := by
  have hkeys : ((fs.entries.filterMap fun e => (nameIn place e.1).map (·, e.2)).map (·.1)).Nodup := by
    rw [List.Nodup, List.pairwise_map, List.pairwise_filterMap]
    refine (List.pairwise_map.mp h).imp fun {a b} hne c hc d hd heq => hne ?_
    obtain ⟨_, hname, rfl⟩ := Option.map_eq_some_iff.mp hc
    obtain ⟨_, hname', rfl⟩ := Option.map_eq_some_iff.mp hd
    rw [nameIn_eq_some_iff.mp hname, nameIn_eq_some_iff.mp hname']
    exact congrArg (fun name => place ++ [name]) heq
  rw [children, Dict.get?_ofList_iff hkeys, entryAt_concat, lookup_eq_some_iff_mem h, List.mem_filterMap]
  constructor
  · rintro ⟨⟨other, entry'⟩, he, heq⟩
    obtain ⟨name', hname, hpair⟩ := Option.map_eq_some_iff.mp heq
    obtain ⟨rfl, rfl⟩ := Prod.mk.inj hpair
    rwa [← nameIn_eq_some_iff.mp hname]
  · intro he
    exact ⟨_, he, by rw [nameIn_eq_some_iff.mpr rfl]; rfl⟩

end FileSystem

namespace Store

/-- Whether a store is the folder to which its root leads in a tree, with names and places as a file system
has them. -/
structure IsIn (s : Store) (fs : FileSystem) : Prop where
  hasNames : fs.HasNames
  distinct : (fs.entries.map (·.1)).Nodup
  content : s.content = fs.folder s.root

/-! ## Lists -/

/-- What a path that was found is listed as, unless its name is reserved. -/
def listedAs? (path : String) : Option RouteId :=
  if (Path.fileName? path).any (Text.beginsWith sharedLead) then none else RouteId.ofPath? path

section Found

variable {fs : FileSystem} {place : Place}

/-- A file in a folder is listed as what its path is listed as, if its name has the ending and the path can be
looked up. -/
theorem routeOf?_eq_listedAs? {root name : String} (hkept : Path.isLost root = false)
    (hname : Path.IsName name) (bytes : ByteArray) : routeOf? root name (.file bytes) =
      if Text.endsWith RouteId.fileEnding name &&
          (Path.child (Path.walked root) name).utf8ByteSize ≤ FileSystem.pathLimit then
        listedAs? (Path.child (Path.walked root) name)
      else none := by
  have htrail := (Path.isTrail_walked hkept).1
  rw [routeOf?, listedAs?, Glob.canFind, hkept, htrail.fileName?_child hname, htrail.ofPath?_child hname,
    Option.any_some, Bool.not_false, Bool.true_and, Bool.and_comm (decide _)]
  cases Text.endsWith RouteId.fileEnding name &&
      decide ((Path.child (Path.walked root) name).utf8ByteSize ≤ FileSystem.pathLimit) with
  | false => rfl
  | true => cases Text.beginsWith sharedLead name <;> rfl

/-- A listing has the names of all files in the folder with the ending whose paths can be looked up. -/
theorem names_eq_of_isListing (hdistinct : (fs.entries.map (·.1)).Nodup) {folder : String}
    {names : List String} (hlisting : Glob.IsListing fs place folder names) :
    names = ((fs.children place).entries.filter fun e => e.2.bytes?.isSome &&
      (Text.endsWith RouteId.fileEnding e.1 &&
        (Path.child folder e.1).utf8ByteSize ≤ FileSystem.pathLimit)).map (·.1) := by
  have : Std.Irrefl Text.Before := ⟨Text.not_before_self⟩
  have : Std.Antisymm Text.Before := ⟨fun a _ h h' => absurd (h.trans h') (Text.not_before_self a)⟩
  refine hlisting.ordered.eq_of_mem_iff
    (List.pairwise_map.mpr ((fs.children place).ascending.filter _)) fun name => ?_
  rw [hlisting.mem_iff, List.mem_map]
  constructor
  · rintro ⟨hends, ⟨bytes, hfile⟩, hfits⟩
    have hget := (FileSystem.get?_children_iff hdistinct).mpr hfile
    refine ⟨(name, .file bytes), List.mem_filter.mpr ⟨Dict.get?_eq_some_iff.mp hget, ?_⟩, rfl⟩
    simp [hends, hfits, Entry.bytes?]
  · rintro ⟨⟨name, entry⟩, he, rfl⟩
    obtain ⟨hmem, hall⟩ := List.mem_filter.mp he
    rw [Bool.and_eq_true, Bool.and_eq_true, decide_eq_true_iff] at hall
    obtain ⟨hfile, hends, hfits⟩ := hall
    have hentry := (FileSystem.get?_children_iff hdistinct).mp (Dict.get?_eq_some_iff.mpr hmem)
    cases entry with
    | folder => cases hfile
    | file bytes => exact ⟨hends, ⟨bytes, hentry⟩, hfits⟩

/-- A store at hand lists what discovery finds under its root, in the same order. -/
theorem IsIn.list_eq_discover {s : Store} (h : s.IsIn fs) {entries : Dict Entry}
    (hentries : s.content = .ok entries) : ∃ found,
      Glob.discover fs s.root "*.yaml" = .ok found ∧ s.list = .ok (found.filterMap listedAs?) := by
  obtain ⟨hfs, hdistinct, hcontent⟩ := h
  obtain ⟨place, hroot, hplace, rfl⟩ := FileSystem.folder_eq_ok_iff.mp (hcontent.symm.trans hentries)
  rcases Glob.discover_cases hfs hroot hplace with ⟨hlost, hfound⟩ | ⟨hkept, names, -, hfound, hlisting⟩
  · refine ⟨[], hfound, ?_⟩
    rw [list_eq hentries, List.filterMap_eq_nil_iff.mpr]
    · rfl
    · intro e he
      rw [Option.eq_none_iff_forall_ne_some]
      exact fun id hroute => absurd (hlost.symm.trans (isLost_of_routeOf? hroute)) (by decide)
  refine ⟨_, hfound, ?_⟩
  rw [list_eq hentries, names_eq_of_isListing hdistinct hlisting, List.map_map, List.filterMap_map,
    List.filterMap_filter]
  refine congrArg Except.ok (List.filterMap_congr fun e he => ?_)
  obtain ⟨name, entry⟩ := e
  have hentry := (FileSystem.get?_children_iff hdistinct).mp (Dict.get?_eq_some_iff.mpr he)
  cases entry with
  | folder => simp [routeOf?, Entry.bytes?]
  | file bytes =>
    rw [routeOf?_eq_listedAs? hkept (hfs.isName hentry).1]
    simp [Entry.bytes?]

/-- Each path that is found leads to a file of the store's folder, and is listed as that file is. -/
theorem IsIn.of_mem_discover {s : Store} (h : s.IsIn fs) {entries : Dict Entry}
    (hentries : s.content = .ok entries) {found : List String}
    (hfound : Glob.discover fs s.root "*.yaml" = .ok found) {path : String} (hpath : path ∈ found) :
    ∃ name bytes, Path.fileName? path = some name ∧ entries.get? name = some (.file bytes) ∧
      fs.read path = .ok bytes ∧ listedAs? path = routeOf? s.root name (.file bytes) := by
  obtain ⟨hfs, hdistinct, hcontent⟩ := h
  obtain ⟨place, hroot, hplace, rfl⟩ := FileSystem.folder_eq_ok_iff.mp (hcontent.symm.trans hentries)
  rcases Glob.discover_cases hfs hroot hplace with ⟨-, hnone⟩ | ⟨hkept, names, -, hsome, hlisting⟩
  · obtain rfl := Except.ok.inj (hnone.symm.trans hfound)
    cases hpath
  obtain rfl := Except.ok.inj (hsome.symm.trans hfound)
  obtain ⟨name, hname, rfl⟩ := List.mem_map.mp hpath
  obtain ⟨hends, ⟨bytes, hfile⟩, hfits⟩ := (hlisting.mem_iff name).mp hname
  have hisName := (hfs.isName hfile).1
  refine ⟨name, bytes, (Path.isTrail_walked hkept).1.fileName?_child hisName,
    (FileSystem.get?_children_iff hdistinct).mpr hfile, ?_, ?_⟩
  · rw [FileSystem.read, FileSystem.find_eq (hlisting.locate name hname), hfile]
    rfl
  · rw [routeOf?_eq_listedAs? hkept hisName, if_pos (Bool.and_eq_true_iff.mpr ⟨hends, decide_eq_true hfits⟩)]

end Found

end Store

end RouteFleet
