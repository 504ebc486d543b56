import Interlude.Yaml.Cursor
/-!
# Tokens of a document

The indicators and scalars of a document with their places. The opening and closing of block
collections, which the text shows only by indentation, are tokens of their own.
-/

namespace Interlude.Yaml

/-- How a scalar is written. -/
inductive ScalarStyle where
  | plain
  | single
  | double
  | literal
  | folded
deriving DecidableEq, Repr, Inhabited

/-- What a token is. -/
inductive Lexeme where
  | streamEnd
  | versionDirective (major minor : Nat)
  | tagDirective (handle tagText : String)
  | documentStart
  | documentEnd
  | blockSequenceStart
  | blockMappingStart
  | blockEnd
  | flowSequenceStart
  | flowSequenceEnd
  | flowMappingStart
  | flowMappingEnd
  | blockEntry
  | flowEntry
  | key
  | value
  | reference (name : String)
  | anchor (name : String)
  | tag (handle suffix : String)
  | scalar (style : ScalarStyle) (text : String)
  | malformed (reason : Malformed)
deriving Repr, Inhabited

/-- A token with its first place and the place after it. -/
structure Token where
  lexeme : Lexeme
  start : Mark
  stop : Mark
deriving Repr, Inhabited

end Interlude.Yaml
