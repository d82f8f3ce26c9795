import RouteFleet.Proofs.Hcl.Body
import RouteFleet.Settings.Document

/-! # Where settings come from

The folder of settings is a text of the body that they are read of, or one that would have to be computed
(`Settings.configDir_ofBody?`).
-/

namespace RouteFleet

open Hcl

namespace Hcl.Expression

variable {P : String → Prop}

/-- What an expression says is one of its texts, or would have to be computed. -/
theorem asText_of_all {e : Expression} (h : e.All P) :
    P e.asText ∨ ∃ t, e.asText = "$\x7b" ++ t ++ "\x7d" := by
  cases e with
  | string s => exact Or.inl (h s (.string s))
  | template s => exact Or.inl (h s (.template s))
  | heredoc flush mark s => exact Or.inl (h s (.heredoc flush mark s))
  | _ => exact Or.inr ⟨_, rfl⟩

end Hcl.Expression

namespace Settings

variable {P : String → Prop}

theorem all_of_field? {name : String} {entries : List (Expression × Expression)} {e : Expression}
    (h : ∀ entry ∈ entries, entry.2.All P) (hfield : field? name entries = some (some e)) : e.All P := by
  have hmem : ∀ entry ∈ entries.filter (·.1.asKey = name), entry.2.All P :=
    fun entry hentry => h entry (List.mem_filter.mp hentry).1
  rw [field?] at hfield
  split at hfield
  case h_1 => cases hfield
  case h_2 key value hfilter =>
    obtain rfl := Option.some.inj (Option.some.inj hfield)
    exact hmem (key, value) (hfilter ▸ List.mem_singleton_self _)
  case h_3 => cases hfield

theorem configDir_ofValues? {configDir certResolver listenPort authEndpoint : Option Expression}
    {s : Settings} (h : ofValues? configDir certResolver listenPort authEndpoint = some s) :
    ∃ e, configDir = some e ∧ s.configDir = e.asText := by
  have hset : ∀ (port : UInt16) (endpoint : Option String), (do
      return ⟨(← configDir).asText, (← certResolver).asText, port, endpoint⟩ : Option Settings) = some s →
      ∃ e, configDir = some e ∧ s.configDir = e.asText := by
    intro port endpoint h
    obtain ⟨e, he, h⟩ := Option.bind_eq_some_iff.mp h
    obtain ⟨resolver, -, h⟩ := Option.bind_eq_some_iff.mp h
    obtain rfl := Option.some.inj h
    exact ⟨e, he, rfl⟩
  unfold ofValues? at h
  cases listenPort with
  | none =>
    obtain ⟨port, -, h⟩ := Option.bind_eq_some_iff.mp h
    exact hset port _ h
  | some value =>
    obtain ⟨port, -, h⟩ := Option.bind_eq_some_iff.mp h
    exact hset port _ h

theorem configDir_ofServer? {server : Expression} {s : Settings} (hserver : server.All P)
    (h : ofServer? server = some s) : ∃ e : Expression, e.All P ∧ s.configDir = e.asText := by
  unfold ofServer? at h
  split at h
  case h_1 entries =>
    obtain ⟨configDir, hfield, h⟩ := Option.bind_eq_some_iff.mp h
    obtain ⟨certResolver, -, h⟩ := Option.bind_eq_some_iff.mp h
    obtain ⟨listenPort, -, h⟩ := Option.bind_eq_some_iff.mp h
    obtain ⟨authEndpoint, -, h⟩ := Option.bind_eq_some_iff.mp h
    obtain ⟨e, rfl, hs⟩ := configDir_ofValues? h
    exact ⟨e, all_of_field? (Expression.all_object_iff.mp hserver) hfield, hs⟩
  case h_2 items =>
    obtain ⟨e, he, hs⟩ := configDir_ofValues? h
    exact ⟨e, Expression.all_array_iff.mp hserver e (List.mem_of_getElem? he), hs⟩
  case h_3 => cases h

/-- The folder is a text of the body, or would have to be computed. -/
theorem configDir_ofBody? {body : Body} {s : Settings} (hbody : ∀ item ∈ body, Item.All P item)
    (h : ofBody? body = some s) : P s.configDir ∨ ∃ t, s.configDir = "$\x7b" ++ t ++ "\x7d" := by
  obtain ⟨server?, hfield, h⟩ := Option.bind_eq_some_iff.mp h
  cases server? with
  | none => cases h
  | some server =>
    obtain ⟨e, he, hs⟩ := configDir_ofServer? (all_of_field? (Body.all_toEntries hbody) hfield) h
    rw [hs]
    exact Expression.asText_of_all he

end Settings

end RouteFleet
