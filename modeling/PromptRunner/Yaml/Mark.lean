/-!
# Placed text

YAML gives meaning to the place of a character. A text is therefore read as a list of marks, each a
character with its line and column, and the end of the text is a mark of its own. The line breaks
carriage return, line feed, both together and next line are all read as a line feed; the line and
the paragraph separator break lines as well and are kept.
-/

namespace PromptRunner.Yaml

/-- A character at its place. `index` counts the characters before it. -/
structure Mark where
  char : Char
  line : Nat
  column : Nat
  index : Nat
  deriving DecidableEq, Repr

/-- The character that stands for the end of a text. No text may contain it. -/
def endChar : Char := '\x00'

/-- The mark that opens some texts and shows their encoding. -/
def byteOrderMark : Char := '\ufeff'

/-- The characters that a text may contain. -/
def isAllowed (c : Char) : Bool :=
  let n := c.toNat
  n == 0x09 || n == 0x0a || n == 0x0d || (0x20 ≤ n && n ≤ 0x7e) || n == 0x85 ||
    (0xa0 ≤ n && n ≤ 0xd7ff) || (0xe000 ≤ n && n ≤ 0xfffd) || 0x10000 ≤ n

/-- A line break of a placed text. -/
def isBreak (c : Char) : Bool :=
  c == '\n' || c == '\u2028' || c == '\u2029'

def isBlank (c : Char) : Bool :=
  c == ' ' || c == '\t'

/-- The end of a line or of the text. -/
def isLineEnd (c : Char) : Bool :=
  isBreak c || c == endChar

/-- White space or the end of the text. -/
def isGap (c : Char) : Bool :=
  isBlank c || isLineEnd c

/-- The characters of names: ASCII letters and digits, the underscore and the hyphen. -/
def isNameChar (c : Char) : Bool :=
  c.isAlphanum || c == '_' || c == '-'

/-- The marks of a text from a place on. -/
def marksFrom (line column index : Nat) : List Char → List Mark
  | [] => [⟨endChar, line, column, index⟩]
  | '\r' :: '\n' :: cs => ⟨'\n', line, column, index⟩ :: marksFrom (line + 1) 0 (index + 2) cs
  | c :: cs =>
    if c == '\r' || c == '\u0085' then
      ⟨'\n', line, column, index⟩ :: marksFrom (line + 1) 0 (index + 1) cs
    else if isBreak c then ⟨c, line, column, index⟩ :: marksFrom (line + 1) 0 (index + 1) cs
    else ⟨c, line, column, index⟩ :: marksFrom line (column + 1) (index + 1) cs

/-- The marks of a text, or none if it has a character that is not allowed. -/
def marks? (cs : List Char) : Option (List Mark) :=
  if cs.all isAllowed then some (marksFrom 0 0 0 cs) else none

def charAt (ms : List Mark) (distance : Nat) : Char :=
  match ms[distance]? with
  | some m => m.char
  | none => endChar

def chars (ms : List Mark) : List Char :=
  ms.map Mark.char

/-- Whether three hyphens or three dots stand alone at the start of a line; they divide
documents. -/
def isDivider (c : Char) (ms : List Mark) : Bool :=
  match ms with
  | a :: b :: d :: rest =>
    a.column == 0 && a.char == c && b.char == c && d.char == c && isGap (charAt rest 0)
  | _ => false

/-- Whether a document starts or ends here. -/
def atDivider (ms : List Mark) : Bool :=
  isDivider '-' ms || isDivider '.' ms

end PromptRunner.Yaml
