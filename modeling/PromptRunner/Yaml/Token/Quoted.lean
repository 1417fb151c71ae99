import PromptRunner.Text.Digits
import PromptRunner.Yaml.Gap
/-!
# Quoted scalars

Between single quotes a doubled quote stands for one. Between double quotes a backslash opens an
escape. In both, lines are folded.
-/

namespace PromptRunner.Yaml.Quoted

/-- The escapes of one character. -/
def shortEscape? : Char → Option Char
  | '0' => some '\x00'
  | 'a' => some '\x07'
  | 'b' => some '\x08'
  | 't' => some '\t'
  | '\t' => some '\t'
  | 'n' => some '\n'
  | 'v' => some '\x0b'
  | 'f' => some '\x0c'
  | 'r' => some '\r'
  | 'e' => some '\x1b'
  | ' ' => some ' '
  | '\x22' => some '\x22'
  | '/' => some '/'
  | '\\' => some '\\'
  | 'N' => some '\u0085'
  | '_' => some '\u00a0'
  | 'L' => some '\u2028'
  | 'P' => some '\u2029'
  | _ => none

/-- The number of hexadecimal digits of an escape that gives a code point. -/
def escapeWidth? : Char → Option Nat
  | 'x' => some 2
  | 'u' => some 4
  | 'U' => some 8
  | _ => none

/-- The character that an escape stands for, and its length without the backslash. -/
def escape? (ms : List Mark) : Option (Char × Nat) :=
  let letter := charAt ms 0
  match escapeWidth? letter with
  | some width =>
    let digits := chars ((ms.drop 1).take width)
    if digits.length = width then
      ((Text.hexNumber? digits).bind Text.charOf?).map fun c => (c, width + 1)
    else none
  | none => (shortEscape? letter).map fun c => (c, 1)

/-- A scalar and the marks after it. -/
structure Reading where
  text : List Char
  rest : List Mark

/-- Read on from behind the opening quote, with the characters so far newest first and the gap since
the last of them. The first `skip` marks belong to an escape already read. -/
def readFrom (quote : Char) (text : List Char) (gap : Gap) : Nat → List Mark → Option Reading
  | _, [] => none
  | skip + 1, _ :: ms => readFrom quote text gap skip ms
  | 0, m :: ms =>
    if isBlank m.char then readFrom quote text (gap.addBlank m.char) 0 ms
    else if isBreak m.char then readFrom quote text (gap.addBreak m.char) 0 ms
    else if m.char == endChar || atDivider (m :: ms) then none
    else
      let text := gap.reversedText ++ text
      if m.char == quote then
        if quote == '\x27' && charAt ms 0 == '\x27' then readFrom quote (quote :: text) .empty 1 ms
        else some ⟨text.reverse, ms⟩
      else if m.char == '\\' && quote == '\x22' then
        if isBreak (charAt ms 0) then readFrom quote text .escaped 1 ms
        else
          match escape? ms with
          | some (c, length) => readFrom quote (c :: text) .empty length ms
          | none => none
      else readFrom quote (m.char :: text) .empty 0 ms

def read (quote : Char) (ms : List Mark) : Option Reading :=
  readFrom quote [] .empty 0 ms

end PromptRunner.Yaml.Quoted
