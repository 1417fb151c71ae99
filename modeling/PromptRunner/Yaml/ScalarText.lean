import PromptRunner.Text.Digits
import PromptRunner.Yaml.Mark
import PromptRunner.Yaml.Resolve
/-!
# Written scalars

How a text is written so that it is read back as the same text. A text with a line feed becomes a
literal block where one is possible. A text that would be read as something else when plain stands
between single quotes, and so does one that only quotes keep together; double quotes are for texts
with characters that have to be escaped.
-/

namespace PromptRunner.Yaml.ScalarText

/-- How a text can be written. -/
inductive Form where
  | plain
  | single
  | double
  | literal
  deriving DecidableEq, Repr

/-- The characters that may be written without an escape. -/
def isPrintable (c : Char) : Bool :=
  let n := c.toNat
  n == 0x0a || (0x20 ≤ n && n ≤ 0x7e) || (0xa0 ≤ n && n ≤ 0xd7ff) ||
    (0xe000 ≤ n && n ≤ 0xfffd && n != 0xfeff) || 0x10000 ≤ n

/-- The characters that break lines, before they are read as a line feed. -/
def isRawBreak (c : Char) : Bool :=
  isBreak c || c == '\r' || c == '\u0085'

/-- White space and breaks, and what stands behind the end of a text. -/
def isRawGap (c : Option Char) : Bool :=
  match c with
  | some c => isBlank c || isRawBreak c || c == endChar
  | none => true

/-- The characters that a plain text may not start with. -/
def openingIndicators : List Char :=
  "#,[]\x7b\x7d&*!|>'\x22%@\x60".toList

/-- Whether a character at the start of a text has a meaning of its own. -/
def opensSyntax (c : Char) (next : Option Char) : Bool :=
  openingIndicators.contains c || ((c == '?' || c == ':' || c == '-') && isRawGap next)

/-- Whether a later character has a meaning of its own. -/
def insideSyntax (before c : Char) (next : Option Char) : Bool :=
  (c == ':' && isRawGap next) || (c == '#' && isRawGap (some before))

/-- Whether any character but the first has a meaning of its own. -/
def hasInsideSyntax : List Char → Bool
  | [] => false
  | [_] => false
  | a :: b :: cs => insideSyntax a b cs.head? || hasInsideSyntax (b :: cs)

/-- Whether a text would be read as anything but plain characters. -/
def hasSyntax (cs : List Char) : Bool :=
  match cs with
  | [] => false
  | c :: rest =>
    cs.take 3 == ['-', '-', '-'] || cs.take 3 == ['.', '.', '.'] || opensSyntax c rest.head? ||
      hasInsideSyntax cs

/-- Whether a character of the first kind stands directly before one of the second. -/
def hasPair (p q : Char → Bool) : List Char → Bool
  | a :: b :: cs => (p a && q b) || hasPair p q (b :: cs)
  | _ => false

def isSpace (c : Char) : Bool :=
  c == ' '

/-- Whether a text starts or ends with white space. -/
def hasOuterSpace (cs : List Char) : Bool :=
  let outer := fun c : Option Char => c.any fun c => isSpace c || isRawBreak c
  outer cs.head? || outer cs.getLast?

/-- Whether only double quotes can hold a text. -/
def needsEscapes (cs : List Char) : Bool :=
  hasPair isSpace isRawBreak cs || cs.any fun c => !isPrintable c

/-- Whether a text may be written without quotes. -/
def plainAllowed (cs : List Char) : Bool :=
  !(hasOuterSpace cs || needsEscapes cs || cs.any isRawBreak || hasSyntax cs)

/-- Whether a text may be written between single quotes. -/
def singleAllowed (cs : List Char) : Bool :=
  !(needsEscapes cs || hasPair isRawBreak isSpace cs)

/-- Whether a text may be written as a literal block. -/
def literalAllowed (cs : List Char) : Bool :=
  !(cs.isEmpty || needsEscapes cs || cs.getLast? == some ' ')

/-- Whether a plain text would not be read as a text, or looks like a number with zeros before
it. -/
def isAmbiguous (cs : List Char) : Bool :=
  resolve cs != .text || Resolve.isPaddedNumber cs

/-- How a text is written. -/
def form (cs : List Char) : Form :=
  if cs.contains '\n' then if literalAllowed cs then .literal else .double
  else if !isAmbiguous cs && plainAllowed cs then .plain
  else if singleAllowed cs then .single
  else .double

/-- Put spaces between each line break and the character after it. -/
def indentFrom (indent : Nat) (afterBreak : Bool) : List Char → List Char
  | [] => []
  | c :: cs =>
    if isRawBreak c then c :: indentFrom indent true cs
    else if afterBreak then List.replicate indent ' ' ++ c :: indentFrom indent false cs
    else c :: indentFrom indent false cs

/-- A text between single quotes, in which a quote is doubled. A quote that closes behind a line
break is indented. -/
def singleText (indent : Nat) (cs : List Char) : List Char :=
  let body := cs.flatMap fun c => if c == '\x27' then ['\x27', '\x27'] else [c]
  indentFrom indent false ('\x27' :: (body ++ ['\x27']))

/-- The escapes with one letter. -/
def letterEscape? : Char → Option Char
  | '\x00' => some '0'
  | '\x07' => some 'a'
  | '\x08' => some 'b'
  | '\t' => some 't'
  | '\n' => some 'n'
  | '\x0b' => some 'v'
  | '\x0c' => some 'f'
  | '\r' => some 'r'
  | '\x1b' => some 'e'
  | '\x22' => some '\x22'
  | '\\' => some '\\'
  | '\u0085' => some 'N'
  | '\u2028' => some 'L'
  | '\u2029' => some 'P'
  | _ => none

/-- The hexadecimal digits of a number in a given width, with capital letters. -/
def capitalHex (width n : Nat) : List Char :=
  (Text.hexText width n).map Char.toUpper

def doubleChar (c : Char) : List Char :=
  if isPrintable c && !isRawBreak c && c != '\x22' && c != '\\' then [c]
  else
    match letterEscape? c with
    | some e => ['\\', e]
    | none =>
      let n := c.toNat
      if n ≤ 0xff then '\\' :: 'x' :: capitalHex 2 n
      else if n ≤ 0xffff then '\\' :: 'u' :: capitalHex 4 n
      else '\\' :: 'U' :: capitalHex 8 n

def doubleText (cs : List Char) : List Char :=
  '\x22' :: (cs.flatMap doubleChar ++ ['\x22'])

/-- The indentation that the header of a literal block has to give, if the first line starts with
white space. -/
def indentHint (cs : List Char) : List Char :=
  match cs.head? with
  | some c => if isSpace c || isRawBreak c then ['2'] else []
  | none => []

/-- How the header of a literal block says what happens to the line breaks at its end. -/
def chompHint (cs : List Char) : List Char :=
  match cs.reverse with
  | [] => ['-']
  | [c] => if isRawBreak c then ['+'] else ['-']
  | c :: b :: _ => if isRawBreak c then if isRawBreak b then ['+'] else [] else ['-']

def literalText (indent : Nat) (cs : List Char) : List Char :=
  '|' :: (indentHint cs ++ chompHint cs ++ '\n' :: indentFrom indent true cs)

/-- The written form of a text; its later lines are indented. -/
def render (indent : Nat) (cs : List Char) : List Char :=
  match form cs with
  | .plain => cs
  | .single => singleText indent cs
  | .double => doubleText cs
  | .literal => literalText indent cs

end PromptRunner.Yaml.ScalarText
