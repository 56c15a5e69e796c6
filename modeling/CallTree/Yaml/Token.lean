/-!
# Tokens of a document
-/

namespace CallTree.Yaml

/-- What a directive says. -/
inductive Directive where
  | version (major minor : Nat)
  /-- An abbreviation for the beginning of tags. -/
  | handle (name expansion : String)
  /-- Something that is passed over. -/
  | other
deriving DecidableEq, Repr

/-- **A token of a document.** The tokens for the beginning of a block, and `key`
where no question mark stands, come from the layout. -/
inductive Token where
  | directive (d : Directive)
  | documentStart
  | documentEnd
  | blockSequenceStart
  | blockMappingStart
  | blockEnd
  | flowSequenceStart
  | flowSequenceEnd
  | flowMappingStart
  | flowMappingEnd
  | blockEntry
  | flowEntry
  | key
  | value
  | reference (name : String)
  | anchor (name : String)
  | tag (handle : Option String) (suffix : String)
  | scalar (text : String) (plain : Bool)
deriving DecidableEq, Repr

end CallTree.Yaml
