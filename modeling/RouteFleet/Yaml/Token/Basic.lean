/-! # YAML tokens

The text of a YAML document is a row of tokens. Indentation shows in it as marks that begin and end
blocks; the mark of a key stands before the key also where the text shows it only by the colon after
the key.
-/

namespace RouteFleet.Yaml

/-- A mark or a word of a document's text. -/
inductive Token where
  | versionDirective (major minor : Nat)
  | tagDirective (handle lead : String)
  | documentStart
  | documentEnd
  | streamEnd
  | blockSequenceStart
  | blockMappingStart
  | blockEnd
  | flowSequenceStart
  | flowSequenceEnd
  | flowMappingStart
  | flowMappingEnd
  | flowEntry
  | blockEntry
  | key
  | value
  | alias (name : String)
  | anchor (name : String)
  | tag (handle suffix : String)
  | scalar (plain : Bool) (text : String)
deriving DecidableEq, Repr, Inhabited

end RouteFleet.Yaml
