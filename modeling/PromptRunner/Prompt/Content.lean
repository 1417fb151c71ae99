import PromptRunner.Template
import PromptRunner.Yaml.ValueText
/-!
# Content

What a message says: a text, a list or a mapping of contents, or a value that holds no text.
Variables are filled in every text, but not in the keys of a mapping. The text of a content has a
line, or several, for each part that is not empty.
-/

namespace PromptRunner

inductive Content where
  | text (s : String)
  | list (items : List Content)
  | map (entries : List (Yaml.Value × Content))
  | other (value : Yaml.Value)
  deriving Repr

namespace Content

mutual

/-- The content that a value describes. Tags do not count. -/
def ofValue : Yaml.Value → Content
  | .text s => .text s
  | .list vs => .list (ofItems vs)
  | .map es => .map (ofEntries es)
  | .tagged _ v => ofValue v
  | .null => .other .null
  | .bool b => .other (.bool b)
  | .int n => .other (.int n)
  | .float d => .other (.float d)

def ofItems : List Yaml.Value → List Content
  | [] => []
  | v :: vs => ofValue v :: ofItems vs

def ofEntries : List (Yaml.Value × Yaml.Value) → List (Yaml.Value × Content)
  | [] => []
  | (k, v) :: es => (k, ofValue v) :: ofEntries es

end

mutual

/-- The names of the tokens of a content in order of occurrence. -/
def tokens : Content → List String
  | .text s => Template.tokens s
  | .list cs => itemTokens cs
  | .map es => entryTokens es
  | .other _ => []

def itemTokens : List Content → List String
  | [] => []
  | c :: cs => tokens c ++ itemTokens cs

def entryTokens : List (Yaml.Value × Content) → List String
  | [] => []
  | (_, c) :: es => tokens c ++ entryTokens es

end

def names (c : Content) : List String :=
  Text.nameSet c.tokens

mutual

def fill (lookup : String → Option String) : Content → Content
  | .text s => .text (Template.fill lookup s)
  | .list cs => .list (fillItems lookup cs)
  | .map es => .map (fillEntries lookup es)
  | .other v => .other v

def fillItems (lookup : String → Option String) : List Content → List Content
  | [] => []
  | c :: cs => fill lookup c :: fillItems lookup cs

def fillEntries (lookup : String → Option String) :
    List (Yaml.Value × Content) → List (Yaml.Value × Content)
  | [] => []
  | (k, c) :: es => (k, fill lookup c) :: fillEntries lookup es

end

/-- The texts that are not empty, each on lines of its own. -/
def joinLines (texts : List (List Char)) : List Char :=
  ['\n'].intercalate (texts.filter fun t => !t.isEmpty)

mutual

def chars : Content → List Char
  | .text s => s.toList
  | .list cs => joinLines (itemChars cs)
  | .map es => joinLines (entryChars es)
  | .other v => v.plainText.toList

def itemChars : List Content → List (List Char)
  | [] => []
  | c :: cs => chars c :: itemChars cs

def entryChars : List (Yaml.Value × Content) → List (List Char)
  | [] => []
  | (_, c) :: es => chars c :: entryChars es

end

def toText (c : Content) : String :=
  String.ofList c.chars

end Content

end PromptRunner
