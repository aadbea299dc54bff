/-!
# Tokens of YAML text

The tokens that a YAML text is made of. Collections in block style have tokens of their own for
their start and end, as brackets give them to those in flow style, and every entry of a mapping
has a token before its key and one before its value.
-/

namespace LogForwarder.Yaml

/-- How a scalar is written. -/
inductive ScalarStyle where
  | plain
  | quoted
  | literal
  | folded
  deriving DecidableEq, Repr

/-- A token of YAML text. -/
inductive Token where
  /-- A directive that names the version of YAML. -/
  | version (major minor : Nat)
  /-- A directive that says what a tag handle stands for. -/
  | handle (handle expansion : String)
  | documentStart
  | documentEnd
  | blockSequence
  | blockMapping
  | blockEnd
  | flowSequence
  | flowSequenceEnd
  | flowMapping
  | flowMappingEnd
  | blockEntry
  | flowEntry
  | key
  | value
  | anchor (name : String)
  /-- A node that stands for an anchored one. -/
  | reference (name : String)
  | tag (handle suffix : String)
  | scalar (style : ScalarStyle) (text : String)
  deriving DecidableEq, Repr

end LogForwarder.Yaml
