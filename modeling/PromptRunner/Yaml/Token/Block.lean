import PromptRunner.Yaml.Mark
/-!
# Block scalars

A block scalar is a header and indented lines. A literal one keeps its line breaks; a folded one
joins lines that do not start with a blank. The header may give the indentation, and whether the
line breaks at the end are dropped or kept; otherwise one of them stays.
-/

namespace PromptRunner.Yaml.Block

/-- What happens to the line breaks at the end. -/
inductive Chomping where
  | strip
  | clip
  | keep
  deriving DecidableEq, Repr

/-- What a header says. An indentation of zero is one that the first line decides. -/
structure Header where
  chomping : Chomping := .clip
  indentation : Nat := 0
  deriving DecidableEq, Repr

/-- The chomping that a character asks for. -/
def chomping? : Char → Option Chomping
  | '+' => some .keep
  | '-' => some .strip
  | _ => none

/-- The signs of a header and the marks after them; the indentation may not be zero. -/
def header? (ms : List Mark) : Option (Header × List Mark) :=
  let digit := fun c : Char => c.toNat - '0'.toNat
  match chomping? (charAt ms 0) with
  | some chomping =>
    let c := charAt ms 1
    if c == '0' then none
    else if c.isDigit then some (⟨chomping, digit c⟩, ms.drop 2)
    else some (⟨chomping, 0⟩, ms.drop 1)
  | none =>
    let c := charAt ms 0
    if c == '0' then none
    else if c.isDigit then
      match chomping? (charAt ms 1) with
      | some chomping => some (⟨chomping, digit c⟩, ms.drop 2)
      | none => some (⟨.clip, digit c⟩, ms.drop 1)
    else some (⟨.clip, 0⟩, ms)

/-- The marks after the end of a line on which only blanks and a comment may stand. -/
def restOfLine? (ms : List Mark) : Option (List Mark) :=
  let ms := ms.dropWhile fun m => isBlank m.char
  let ms := if charAt ms 0 == '#' then ms.dropWhile fun m => !isLineEnd m.char else ms
  if isBreak (charAt ms 0) then some (ms.drop 1)
  else if charAt ms 0 == endChar then some ms
  else none

/-- The empty lines before the first line with content. -/
structure Opening where
  /-- The line breaks read, newest first. -/
  breaks : List Char
  /-- The widest indentation seen. -/
  widest : Nat
  rest : List Mark

/-- Whether a mark stands where indentation may still be read. -/
def inIndentation (indentation : Nat) (m : Mark) : Bool :=
  indentation == 0 || m.column < indentation

/-- Read empty lines. Indentation consists of spaces; a tab in its place is refused. -/
def openingFrom (indentation widest : Nat) (breaks : List Char) : List Mark → Option Opening
  | [] => some ⟨breaks, widest, []⟩
  | m :: ms =>
    if inIndentation indentation m && m.char == ' ' then
      openingFrom indentation widest breaks ms
    else if inIndentation indentation m && m.char == '\t' then none
    else if isBreak m.char then openingFrom indentation (max widest m.column) (m.char :: breaks) ms
    else some ⟨breaks, max widest m.column, m :: ms⟩

/-- The lines read so far. -/
structure Lines where
  /-- The text, newest character first. -/
  text : List Char := []
  /-- The break of the last line with content. -/
  lead : List Char := []
  /-- The breaks after it, newest first. -/
  more : List Char := []
  /-- Whether the last line with content started with a blank. -/
  blank : Bool := false

/-- Start a line with content at its first character. -/
def Lines.startLine (l : Lines) (literal : Bool) (c : Char) : Lines :=
  let joined :=
    if !literal && l.lead == ['\n'] && !l.blank && !isBlank c then
      if l.more.isEmpty then [' '] else []
    else l.lead
  { text := c :: (l.more ++ joined ++ l.text), blank := isBlank c }

/-- The text with the line breaks at its end treated as asked for. -/
def Lines.finish (l : Lines) : Chomping → List Char
  | .strip => l.text.reverse
  | .clip => (l.lead ++ l.text).reverse
  | .keep => (l.more ++ l.lead ++ l.text).reverse

/-- Read lines with content; `inLine` says whether the indentation of the line is behind. -/
def linesFrom (literal : Bool) (indentation : Nat) (l : Lines) :
    Bool → List Mark → Option (Lines × List Mark)
  | _, [] => some (l, [])
  | true, m :: ms =>
    if m.char == endChar then some (l, m :: ms)
    else if isBreak m.char then linesFrom literal indentation { l with lead := [m.char] } false ms
    else linesFrom literal indentation { l with text := m.char :: l.text } true ms
  | false, m :: ms =>
    if m.column < indentation && m.char == ' ' then linesFrom literal indentation l false ms
    else if m.column < indentation && m.char == '\t' then none
    else if isBreak m.char then
      linesFrom literal indentation { l with more := m.char :: l.more } false ms
    else if m.column == indentation && m.char != endChar then
      linesFrom literal indentation (l.startLine literal m.char) true ms
    else some (l, m :: ms)

/-- Read a block scalar from behind its indicator, inside a block whose content starts at column
`margin`. -/
def read (literal : Bool) (margin : Nat) (ms : List Mark) : Option (List Char × List Mark) :=
  match header? ms with
  | none => none
  | some (header, ms) =>
    match restOfLine? ms with
    | none => none
    | some ms =>
      let given := if header.indentation = 0 then 0 else margin - 1 + header.indentation
      match openingFrom given 0 [] ms with
      | none => none
      | some opening =>
        let indentation := if given = 0 then max (max opening.widest margin) 1 else given
        match linesFrom literal indentation { more := opening.breaks } false opening.rest with
        | none => none
        | some (l, rest) => some (l.finish header.chomping, rest)

end PromptRunner.Yaml.Block
