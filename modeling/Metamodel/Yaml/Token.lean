/-!
# Metamodel.Yaml.Token -- the marks and scalars of a document

Indentation is made explicit: blocks of sequences and mappings are opened and closed by tokens of
their own, and every key has a token in front of it.
-/

namespace Metamodel.Yaml

/-- How a scalar is written. -/
inductive Style where
  | plain
  | quoted
  | literal
  | folded
deriving DecidableEq, Repr

/-- The parts of a document. -/
inductive Token where
  | version (major minor : Nat)
  | tagDirective (handle uri : String)
  | documentStart
  | documentEnd
  | blockSequence
  | blockMapping
  | blockEnd
  | sequenceOpen
  | sequenceClose
  | mappingOpen
  | mappingClose
  | entry
  | comma
  | key
  | value
  | reference (name : String)
  | anchor (name : String)
  | tag (handle suffix : String)
  | scalar (text : String) (style : Style)
deriving DecidableEq, Repr

end Metamodel.Yaml
