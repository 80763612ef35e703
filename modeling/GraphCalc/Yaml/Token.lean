import GraphCalc.Yaml.Property

/-!
# Tokens of a document

Besides the marks and scalars that are written in a document there are tokens
for what its layout says: where a block of entries starts and ends, and where a
key starts.
-/

namespace GraphCalc.Yaml

/-- What a token of a document is. -/
inductive TokenKind
  | directive (directive : Directive)
  | documentStart
  | documentEnd
  | streamEnd
  | blockSequenceStart
  | blockMappingStart
  | blockEnd
  | flowSequenceStart
  | flowSequenceEnd
  | flowMappingStart
  | flowMappingEnd
  | blockEntry
  | flowEntry
  | key
  | value
  | reference (name : String)
  | anchor (name : String)
  | tag (tag : WrittenTag)
  | scalar (plain : Bool) (text : String)
deriving DecidableEq, Repr

/-- A token and the line on which it starts, counted from zero. -/
structure Token where
  kind : TokenKind
  line : Nat
deriving DecidableEq, Repr

end GraphCalc.Yaml
