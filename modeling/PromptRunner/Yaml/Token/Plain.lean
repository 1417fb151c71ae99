import PromptRunner.Yaml.Gap
/-!
# Plain scalars

A scalar without quotes goes on until a colon before a gap, a comment, a document divider, less
indentation or, between brackets, a flow indicator.
-/

namespace PromptRunner.Yaml.Plain

/-- A scalar, whether its line was left behind it, and the marks after it. -/
structure Reading where
  text : List Char
  newLine : Bool
  rest : List Mark

/-- The indicators that end a plain scalar between brackets. -/
def isFlowEnd (c : Char) : Bool :=
  c == ',' || c == '[' || c == ']' || c == '\x7b' || c == '\x7d'

/-- Whether a word may start here after a gap. -/
def continues (inFlow : Bool) (margin : Nat) (m : Mark) (ms : List Mark) : Bool :=
  (inFlow || margin ≤ m.column) && m.char != '#' && !atDivider (m :: ms)

def isEnd (inFlow : Bool) (m : Mark) (ms : List Mark) : Bool :=
  m.char == endChar || (m.char == ':' && isGap (charAt ms 0)) || (inFlow && isFlowEnd m.char)

/-- Between brackets, a colon may not be followed directly by an indicator. -/
def isMisplacedColon (inFlow : Bool) (m : Mark) (ms : List Mark) : Bool :=
  inFlow && m.char == ':' && (isFlowEnd (charAt ms 0) || charAt ms 0 == '?')

/-- Read on, with the characters so far newest first and the gap since the last of them. Lines after
the first start at column `margin` or behind it. -/
def readFrom (inFlow : Bool) (margin : Nat) (text : List Char) (gap : Gap) :
    List Mark → Option Reading
  | [] => some ⟨text.reverse, gap.broken, []⟩
  | m :: ms =>
    if isBlank m.char then
      if gap.broken && m.column < margin && m.char == '\t' then none
      else readFrom inFlow margin text (gap.addBlank m.char) ms
    else if isBreak m.char then readFrom inFlow margin text (gap.addBreak m.char) ms
    else if gap.isOpen && !continues inFlow margin m ms then
      some ⟨text.reverse, gap.broken, m :: ms⟩
    else if isMisplacedColon inFlow m ms then none
    else if isEnd inFlow m ms then some ⟨text.reverse, gap.broken, m :: ms⟩
    else readFrom inFlow margin (m.char :: (gap.reversedText ++ text)) .empty ms

/-- Read the plain scalar that starts here. -/
def read (inFlow : Bool) (margin : Nat) (ms : List Mark) : Option Reading :=
  readFrom inFlow margin [] .empty ms

end PromptRunner.Yaml.Plain
