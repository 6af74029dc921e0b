import ClassFacts.Yaml.Text

namespace ClassFacts.Yaml

inductive ScalarStyle
  | plain
  | quoted
  | literal
  | folded
  deriving DecidableEq, Repr

/-- The lexical units of a stream. The suffix of a tag is given in octets, since escapes in it
need not form characters. -/
inductive Token
  | streamEnd
  | version (major minor : Nat)
  | tagHandle (handle : List Char) (expansion : List UInt8)
  | documentStart
  | documentEnd
  | blockSequenceStart
  | blockMappingStart
  | blockEnd
  | flowSequenceStart
  | flowSequenceEnd
  | flowMappingStart
  | flowMappingEnd
  | blockEntry
  | flowEntry
  | key
  | value
  | alias (name : List Char)
  | anchor (name : List Char)
  | tag (handle : List Char) (suffix : List UInt8)
  | scalar (style : ScalarStyle) (text : List Char)
  deriving DecidableEq, Repr

end ClassFacts.Yaml
