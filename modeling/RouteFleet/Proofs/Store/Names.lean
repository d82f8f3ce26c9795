import RouteFleet.Proofs.File.Path
import RouteFleet.Proofs.Yaml.Size
import RouteFleet.Store.Basic
import RouteFleet.Validation.Rule

/-! # Identities as names of files

An identity that is made from the name of a valid route and a tag is a plain key
(`RouteId.IsMade.isPlainKey`) of a file whose name is not too long (`RouteId.IsMade.isTooLong_eq_false`).
Each identity that is a plain key is found again in the name of its file (`RouteId.ofPath?_fileName`).
-/

namespace RouteFleet

open Text

namespace RouteId

theorem fileName_inj {id id' : RouteId} (h : id.fileName = id'.fileName) : id = id' := by
  obtain ⟨text⟩ := id
  obtain ⟨text'⟩ := id'
  have hchars := congrArg String.toList h
  simp only [fileName, String.toList_append, List.append_cancel_right_eq] at hchars
  exact congrArg RouteId.mk (String.toList_inj.mp hchars)

/-! ## Identities found again -/

theorem ne_empty_of_isPlainKey {id : RouteId} (h : Store.isPlainKey id.text = true) : id.text ≠ "" := by
  intro hempty
  rw [hempty] at h
  exact absurd h (by decide)

/-- The file of a plain key has a name that something in a folder can have. -/
theorem isName_fileName {id : RouteId} (h : Store.isPlainKey id.text = true) :
    Path.IsName id.fileName := by
  have hends : ∀ s : String, ¬ fileEnding.toList <:+ s.toList → id.fileName ≠ s := by
    rintro s hnot rfl
    refine hnot ?_
    rw [fileName, String.toList_append]
    exact List.suffix_append _ _
  have hclean : ∀ c, (c ≠ '/' && c ≠ '\\' && c ≠ '\x00') = false → c ∉ fileEnding.toList →
      c ∉ id.fileName.toList := by
    intro c hc hending hmem
    rw [Store.isPlainKey, Bool.and_eq_true, List.all_eq_true] at h
    rw [fileName, String.toList_append, List.mem_append] at hmem
    rcases hmem with hmem | hmem
    · exact absurd ((h.2 c hmem).symm.trans hc) (by decide)
    · exact hending hmem
  exact ⟨hends _ (by decide), hends _ (by decide), hends _ (by decide),
    hclean '/' (by decide) (by decide), hclean '\x00' (by decide) (by decide)⟩

/-- An identity that is a plain key is found again in the name of its file. -/
theorem ofPath?_fileName {id : RouteId} (h : Store.isPlainKey id.text = true) :
    ofPath? id.fileName = some id := by
  rw [fileName, ofPath?_ending (isName_fileName h), if_neg (ne_empty_of_isPlainKey h)]

/-! ## Identities made from names and tags -/

/-- Whether an identity is made from the name of a valid route and a tag. -/
def IsMade (id : RouteId) : Prop := ∃ name tag, Rule.isName name = true ∧ id = ofTag name tag

/-- A character of an identity that is made from a name and a tag. -/
def isKeyChar (c : Char) : Bool := isAlnum c || c == '-' || c == '_'

theorem isKeyChar_of_isTagDigit {c : Char} (h : isTagDigit c = true) : isKeyChar c = true := by
  have hlower : ∀ {a b : Char}, (decide (a ≤ c) && decide (c ≤ b)) = true → b ≤ 'z' → 'a' ≤ a →
      isAlnum c = true := by
    intro a b hboth hb ha
    simp only [Bool.and_eq_true, decide_eq_true_eq] at hboth
    simp only [isAlnum, isLetter, Bool.or_eq_true, Bool.and_eq_true, decide_eq_true_eq]
    exact .inl (.inl ⟨Char.le_trans ha hboth.1, Char.le_trans hboth.2 hb⟩)
  rw [isKeyChar, Bool.or_eq_true, Bool.or_eq_true]
  rw [isTagDigit, Bool.or_eq_true] at h
  rcases h with h | h
  · refine .inl (.inl ?_)
    rw [isAlnum, isDigit, h, Bool.or_true]
  · exact .inl (.inl (hlower h (by decide) (by decide)))

namespace IsMade

variable {id : RouteId}

theorem isKeyChar (h : id.IsMade) : ∀ c ∈ id.text.toList, RouteId.isKeyChar c = true := by
  obtain ⟨name, tag, hname, rfl⟩ := h
  intro c hc
  simp only [ofTag, String.toList_append, List.mem_append] at hc
  rcases hc with (hc | hc) | hc
  · simp only [Rule.isName, Rule.within, Bool.and_eq_true, List.all_eq_true] at hname
    rw [RouteId.isKeyChar, hname.2 c hc, Bool.true_or]
  · obtain rfl := List.mem_singleton.mp hc
    decide
  · have htag := tag.isTag_text
    rw [isTag, Bool.and_eq_true, List.all_eq_true] at htag
    exact isKeyChar_of_isTagDigit (htag.2 c hc)

theorem length_le (h : id.IsMade) : id.text.toList.length ≤ 41 := by
  obtain ⟨name, tag, hname, rfl⟩ := h
  have htag := tag.isTag_text
  simp only [Rule.isName, Rule.within, Bool.and_eq_true, decide_eq_true_eq] at hname
  rw [isTag, Bool.and_eq_true, beq_iff_eq] at htag
  simp only [ofTag, String.toList_append, List.length_append, htag.1]
  have hmark : "_".toList.length = 1 := rfl
  omega

theorem ne_empty (h : id.IsMade) : id.text ≠ "" := by
  obtain ⟨name, tag, -, rfl⟩ := h
  intro hempty
  have hlength := congrArg (fun s => s.toList.length) hempty
  simp [ofTag] at hlength

theorem notMem (h : id.IsMade) {c : Char} (hc : RouteId.isKeyChar c = false) :
    c ∉ id.text.toList := fun hmem => by
  rw [h.isKeyChar c hmem] at hc
  exact nomatch hc

theorem name_ne_empty {name : String} (h : Rule.isName name = true) : name ≠ "" := by
  rintro rfl
  exact absurd h (by decide)

/-- Such an identity has two parts, of which the first is a valid name. -/
theorem isLegacy_eq_false (h : id.IsMade) : id.isLegacy = false := by
  obtain ⟨name, tag, hname, rfl⟩ := h
  exact isLegacy_ofTag (name_ne_empty hname) tag

theorem isName_name (h : id.IsMade) : Rule.isName id.name = true := by
  obtain ⟨name, tag, hname, rfl⟩ := h
  rw [name_ofTag (name_ne_empty hname)]
  exact hname

/-- Where a character of `pat` is missing, `pat` does not occur. -/
theorem occursIn_eq_false {c : Char} {pat cs : List Char} (hpat : c ∈ pat) (hcs : c ∉ cs) :
    occursIn pat cs = false := by
  induction cs with
  | nil =>
    rw [occursIn_nil]
    exact List.isEmpty_eq_false_iff.mpr (List.ne_nil_of_mem hpat)
  | cons d cs ih =>
    have hnot : pat.isPrefixOf (d :: cs) = false := by
      rw [Bool.eq_false_iff]
      intro hprefix
      exact hcs ((List.isPrefixOf_iff_prefix.mp hprefix).subset hpat)
    rw [occursIn_cons, hnot, ih fun hmem => hcs (List.mem_cons_of_mem _ hmem), Bool.or_false]

theorem isPlainKey (h : id.IsMade) : Store.isPlainKey id.text = true := by
  have hdots : Text.contains ".." id.text = false :=
    occursIn_eq_false (c := '.') (by decide) (h.notMem (by decide))
  have hdot : id.text ≠ "." := by
    intro heq
    exact h.notMem (c := '.') (by decide) (heq ▸ by decide)
  rw [Store.isPlainKey, hdots]
  simp only [decide_not, Bool.not_false, Bool.and_true, Bool.and_eq_true, Bool.not_eq_true',
    decide_eq_false_iff_not, List.all_eq_true]
  refine ⟨⟨h.ne_empty, hdot⟩, fun c hc => ⟨⟨?_, ?_⟩, ?_⟩⟩ <;>
    · rintro rfl
      exact h.notMem (by decide) hc

theorem isTooLong_eq_false (h : id.IsMade) : Store.isTooLong id.text = false := by
  have hascii : ∀ c ∈ id.fileName.toList, c.toNat < 128 := by
    intro c hc
    rw [fileName, String.toList_append, List.mem_append] at hc
    rcases hc with hc | hc
    · have hkey := h.isKeyChar c hc
      simp only [RouteId.isKeyChar, Bool.or_eq_true, beq_iff_eq] at hkey
      rcases hkey with (hkey | rfl) | rfl
      · exact Yaml.toNat_lt_of_isAlnum hkey
      · decide
      · decide
    · have hall : RouteId.fileEnding.toList.all (·.toNat < 128) = true := by decide
      exact of_decide_eq_true (List.all_eq_true.mp hall c hc)
  have hlength := h.length_le
  have hsize := Yaml.Cursor.byteCount_eq_length hascii
  rw [Yaml.Cursor.byteCount_toList, fileName, String.toList_append, List.length_append] at hsize
  have hending : RouteId.fileEnding.toList.length = 5 := rfl
  rw [Store.isTooLong, decide_eq_false_iff_not]
  show ¬ FileSystem.nameLimit < (id.text ++ RouteId.fileEnding).utf8ByteSize
  rw [FileSystem.nameLimit]
  omega

end IsMade

end RouteId

end RouteFleet
