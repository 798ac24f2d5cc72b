/-!
The tokens of a YAML document. The structure of blocks, which the text shows by indentation alone,
is made explicit: tokens mark where a block begins and ends, and where a key begins.
-/

namespace ExtensionAudit.Yaml

/-- A directive in front of a document. -/
inductive Directive where
  /-- The version of the language, by its major number. -/
  | version (major : Nat)
  /-- A shorthand for the beginnings of tags. -/
  | tagHandle (handle start : String)
  /-- Any other directive, which is passed over. -/
  | other
  deriving DecidableEq, Repr

/-- A token of a document. -/
inductive Token where
  | directive (d : Directive)
  | documentStart
  | documentEnd
  | blockSequenceStart
  | blockMappingStart
  | blockEnd
  | flowSequenceStart
  | flowSequenceEnd
  | flowMappingStart
  | flowMappingEnd
  | blockEntry
  | flowEntry
  | key
  | value
  | alias (name : String)
  | anchor (name : String)
  | tag (handle : Option String) (suffix : String)
  | scalar (text : String) (plain : Bool)
  deriving DecidableEq, Repr

end ExtensionAudit.Yaml
