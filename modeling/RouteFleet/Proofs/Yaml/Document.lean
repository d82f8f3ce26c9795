import RouteFleet.Proofs.Yaml.Block
import RouteFleet.Proofs.Yaml.Parser
import RouteFleet.Proofs.Yaml.Printable

/-! # Reading written documents

A mapping that is written as a document is scanned into its tokens (`Token.scan_write`), and read as
the node of the mapping (`Node.ofText?_write`). One with a tag that the scanner does not take is not
read at all.
-/

namespace RouteFleet.Yaml

open Text Style Value Cursor

namespace Scan

/-- A text without tokens. -/
theorem run_end {s : Scan} (hrest : s.cursor.rest = []) (hindent : s.indent ≤ s.cursor.column)
    (hspots : expire s.cursor s.spots = some s.spots) (fuel : Nat) : run (fuel + 1) s = s.finish := by
  rw [run_succ, ready?_self (hrest ▸ fresh_nil) hindent hspots, Option.bind_some, hrest]

/-- Where a text leads to its end, that is how scanning it ends. -/
theorem Leads.run_eq {s t : Scan} (h : Leads s t) (hrest : t.cursor.rest = [])
    (hindent : t.indent ≤ t.cursor.column) (hspots : t.spots = [none]) :
    run (s.cursor.rest.length + 1) s = t.finish := by
  obtain ⟨fuel, hfuel, heq⟩ := h _ (Nat.lt_succ_self _)
  obtain ⟨fuel, rfl⟩ : ∃ m, fuel = m + 1 := ⟨fuel - 1, by omega⟩
  rw [heq, run_end hrest hindent (by rw [hspots]; rfl)]

/-- A document's text before any of it is scanned. -/
def start (cs : List Char) : Scan := { cursor := Cursor.start cs }

theorem atLine_start (cs : List Char) : AtLine 0 (start cs) :=
  ⟨Int.neg_nonpos_of_nonneg (Int.zero_le_ofNat 1), rfl, rfl, rfl⟩

/-- A block that is a whole document ends with it. -/
theorem finish_block {t : Token} {cs text : List Char} {ts : List Token} :
    (((start cs).roll 0 none t).after text ts).finish.map (·.tokens.toList) =
      some (t :: ts ++ [.blockEnd, .streamEnd]) := by
  have hunroll := @unroll_of_lt (((start cs).roll 0 none t).after text ts) (-1) (-1) [] rfl rfl
    (show (-1 : Int) < 0 by decide)
  rw [unroll_of_le (s := { ((start cs).roll 0 none t).after text ts with
    tokens := _, indent := _, outer := _ }) (Int.le_refl _)] at hunroll
  rw [finish, hunroll]
  have hroll : ((start cs).roll 0 none t).tokens = #[t] := rfl
  simp [dropSpot, emit, after, hroll]

/-- The entries of a mapping, as a document. -/
theorem run_entries {entries : List (Value × Value)} (hne : entries ≠ []) {cs : List Char}
    (hcs : cs = lined (joinLines 0 (entryLines 0 entries)) 0) :
    (run (cs.length + 1) (start cs)).map (·.tokens.toList) =
      if allTagsOfEntries isScannable entries then
        some (.blockMappingStart :: entryTokens entries ++ [.blockEnd, .streamEnd])
      else none := by
  have hrest : (start cs).cursor.rest = lined (joinLines 0 (entryLines 0 entries)) 0 ++ [] := by
    rw [List.append_nil, ← hcs]
    rfl
  have houtcome := scansEntries entries hne (atLine_start cs) (Nat.le_refl 0) fresh_nil hrest
  split
  · rename_i hok
    have hrun := (houtcome.1 hok).run_eq (rest_pass_of_eq hrest) (Int.zero_le_ofNat _) rfl
    rw [show run (cs.length + 1) (start cs) = _ from hrun]
    exact finish_block
  · rename_i hnot
    have hrun := houtcome.2 hnot (cs.length + 1) (Nat.lt_succ_self _)
    rw [hrun]
    rfl

/-- Braces with nothing between them, as a document. -/
theorem run_empty : (run 4 (start ['\x7b', '\x7d', '\n'])).map (·.tokens.toList) =
    some [.flowMappingStart, .flowMappingEnd, .streamEnd] := by
  rfl

end Scan

/-- A mapping as a document is scanned into its tokens, unless it has a tag that the scanner does not
take. -/
theorem Token.scan_write (entries : List (Value × Value)) (place : Value.Place) (inMapping : Bool) :
    Token.scan (Value.mapping entries).write.toList =
      if allTagsOfEntries isScannable entries then
        some ((Value.mapping entries).tokens place inMapping ++ [.streamEnd])
      else none := by
  cases entries with
  | nil => exact Scan.run_empty
  | cons entry entries =>
    have htext : (Value.mapping (entry :: entries)).write.toList =
        lined (joinLines 0 (entryLines 0 (entry :: entries))) 0 := by
      rw [Value.write, lined, spaces_zero, List.append_nil, String.toList_ofList]
    have hchars : (lined (joinLines 0 (entryLines 0 (entry :: entries))) 0).all isTextChar = true := by
      have hlines := all_isPrintable_joinLines 0 (all_isPrintable_entryLines 0 (entry :: entries))
      have hend := all_isPrintable_endLine (joinLines 0 (entryLines 0 (entry :: entries)))
      rw [lined, spaces_zero, List.append_nil, List.all_append, Bool.and_eq_true, List.all_eq_true,
        List.all_eq_true]
      exact ⟨fun c hc => isTextChar_of_isPrintable (List.all_eq_true.mp hlines c hc),
        fun c hc => isTextChar_of_isPrintable (List.all_eq_true.mp hend c hc)⟩
    rw [Token.scan, htext, if_pos hchars]
    refine (Scan.run_entries (List.cons_ne_nil _ _) rfl).trans ?_
    rw [Value.tokens]
    simp

/-- A mapping as a document is read as its node, unless it has a tag that the scanner does not take. -/
theorem Node.ofText?_write {entries : List (Value × Value)}
    (h : Sound Tree.depthLimit (.mapping entries)) :
    Node.ofText? (Value.mapping entries).write =
      if (Value.mapping entries).allTags isScannable then some ((Value.mapping entries).toNode none)
      else none := by
  have hscan := Token.scan_write entries .afterMark false
  rw [Node.ofText?, hscan]
  by_cases hok : allTagsOfEntries isScannable entries = true
  · have hok' : (Value.mapping entries).allTags isScannable = true := hok
    simp [hok, hok', Tree.ofTokens?_tokens h, Tree.toNode?_toTree h]
  · have hok' : ¬ (Value.mapping entries).allTags isScannable = true := hok
    simp [hok, hok']

end RouteFleet.Yaml
