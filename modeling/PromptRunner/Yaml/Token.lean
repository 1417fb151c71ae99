/-!
# Tokens

The signs that a YAML text is made of. Indentation is made explicit: a block of lines opens with a
`blockSequenceStart` or `blockMappingStart` and closes with a `blockEnd`.
-/

namespace PromptRunner.Yaml

/-- How a scalar is written: only a plain one may stand for anything but a text. -/
inductive Style where
  | plain
  | quoted
  deriving DecidableEq, Repr

/-- The parts of a tag as written: a handle that a directive explains and the rest. -/
structure TagName where
  handle : List Char
  rest : List Char
  deriving DecidableEq, Repr

/-- A sign of a YAML text. -/
inductive Token where
  | streamEnd
  | versionDirective (major minor : Nat)
  | tagDirective (handle meaning : List Char)
  | documentStart
  | documentEnd
  | blockSequenceStart
  | blockMappingStart
  | blockEnd
  | flowSequenceStart
  | flowSequenceEnd
  | flowMappingStart
  | flowMappingEnd
  | blockEntry
  | flowEntry
  | key
  | value
  | alias (name : List Char)
  | anchor (name : List Char)
  | tag (name : TagName)
  | scalar (text : List Char) (style : Style)
  deriving DecidableEq, Repr

end PromptRunner.Yaml
