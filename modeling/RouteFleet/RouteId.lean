import RouteFleet.Text.Split

/-! # Identities of routes

A route is filed under an identity of the form `name_tag`: the name its operator chose, and eight
hexadecimal digits that tell apart routes which bore one name at different times. An identity
without a tag is *legacy*: the whole of it is the name.

Main statements: `split_ofTag`, an identity made from a name and a tag comes apart into them;
`eq_of_split`, an identity that comes apart is put together from its parts.
-/

namespace RouteFleet

open Text

/-! ## Tags -/

/-- A digit of a tag: hexadecimal, in lower case. -/
def isTagDigit (c : Char) : Bool := ('0' ≤ c && c ≤ '9') || ('a' ≤ c && c ≤ 'f')

/-- Whether a text has the form of a tag. -/
def isTag (s : String) : Bool := s.toList.length == 8 && s.toList.all isTagDigit

/-- Eight hexadecimal digits in lower case. -/
structure Tag where
  text : String
  isTag_text : isTag text = true
deriving DecidableEq

namespace Tag

theorem isTagDigit_hexDigit (n : Nat) : isTagDigit (hexDigit (n % 16)) = true := by
  have h : ∀ k : Fin 16, isTagDigit (hexDigit k.val) = true := by decide
  exact h ⟨n % 16, Nat.mod_lt _ (by decide)⟩

/-- The tag that the eight lowest hexadecimal digits of `n` spell. -/
def ofNat (n : Nat) : Tag :=
  ⟨String.ofList (hexDigits 8 n), by simp [isTag, hexDigits, isTagDigit_hexDigit]⟩

instance : Inhabited Tag := ⟨ofNat 0⟩

end Tag

/-! ## Identities -/

/-- What a route is filed under. -/
structure RouteId where
  text : String
deriving DecidableEq, Repr, Inhabited

namespace RouteId

instance : ToString RouteId := ⟨RouteId.text⟩

/-- The identity of a route called `name`, told apart by `tag`. -/
def ofTag (name : String) (tag : Tag) : RouteId := ⟨name ++ "_" ++ tag.text⟩

/-- The name and the tag, if there is a name, an underscore and a tag. -/
def split (id : RouteId) : Option (String × String) :=
  match splitLast '_' id.text with
  | some (name, tag) => if name ≠ "" && isTag tag then some (name, tag) else none
  | none => none

/-- The part that the operator chose; all of it if there is no tag. -/
def name (id : RouteId) : String :=
  match id.split with
  | some (name, _) => name
  | none => id.text

/-- The tag, if there is one. -/
def tag? (id : RouteId) : Option String := id.split.map (·.2)

/-- Whether the identity has no tag. -/
def isLegacy (id : RouteId) : Bool := id.split.isNone

/-- The same name under another tag. -/
def retag (id : RouteId) (tag : Tag) : RouteId := ofTag id.name tag

/-! ## Names derived from an identity -/

/-- The key of the router for unencrypted requests. -/
def httpRouter (id : RouteId) : String := id.text ++ "-http"

/-- The key of the route's own middleware of a kind. -/
def middleware (id : RouteId) (kind : String) : String := id.text ++ "-" ++ kind

/-- The ending of the files that hold routes. -/
def fileEnding : String := ".yaml"

/-- The file that holds the route. -/
def fileName (id : RouteId) : String := id.text ++ fileEnding

/-! ## Taking identities apart -/

theorem not_mem_of_isTag {c : Char} (hc : isTagDigit c = false) {s : String} (h : isTag s = true) :
    c ∉ s.toList := by
  intro hm
  simp only [isTag, Bool.and_eq_true, List.all_eq_true] at h
  exact Bool.false_ne_true (hc.symm.trans (h.2 c hm))

theorem splitLast_of_isTag (name : String) {tag : String} (h : isTag tag = true) :
    splitLast '_' (name ++ "_" ++ tag) = some (name, tag) := by
  have hcut : cutLast '_' (name.toList ++ '_' :: tag.toList) = some (name.toList, tag.toList) :=
    cutLast_append _ (not_mem_of_isTag (by decide) h)
  simp [splitLast, hcut]

theorem split_ofTag {name : String} (h : name ≠ "") (tag : Tag) :
    (ofTag name tag).split = some (name, tag.text) := by
  simp [ofTag, split, splitLast_of_isTag name tag.isTag_text, h, tag.isTag_text]

theorem eq_of_split {id : RouteId} {name tag : String} (h : id.split = some (name, tag)) :
    id.text = name ++ "_" ++ tag ∧ name ≠ "" ∧ isTag tag = true := by
  simp only [split] at h
  split at h
  · rename_i heq
    split at h
    · rename_i hcond
      simp only [Option.some.injEq, Prod.mk.injEq] at h
      obtain ⟨rfl, rfl⟩ := h
      simp only [decide_not, Bool.and_eq_true, Bool.not_eq_eq_eq_not, Bool.not_true,
        decide_eq_false_iff_not] at hcond
      exact ⟨append_of_splitLast heq, hcond⟩
    · exact absurd h (by simp)
  · exact absurd h (by simp)

@[simp] theorem name_ofTag {name : String} (h : name ≠ "") (tag : Tag) :
    (ofTag name tag).name = name := by
  simp [RouteId.name, split_ofTag h]

theorem name_of_isLegacy {id : RouteId} (h : id.isLegacy = true) : id.name = id.text := by
  rw [isLegacy, Option.isNone_iff_eq_none] at h
  rw [name, h]

@[simp] theorem isLegacy_ofTag {name : String} (h : name ≠ "") (tag : Tag) :
    (ofTag name tag).isLegacy = false := by
  simp [isLegacy, split_ofTag h]

end RouteId

end RouteFleet
