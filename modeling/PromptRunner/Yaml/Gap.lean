import PromptRunner.Yaml.Mark
/-!
# Gaps inside a scalar

A scalar may go on over several lines. What stands between two of its words is a gap: blanks that
are kept, or line breaks that are folded. One line break becomes a space, and of several the first
is dropped; blanks beside a break do not count.
-/

namespace PromptRunner.Yaml

/-- What was read since the last character of a scalar that counts. -/
structure Gap where
  /-- Blanks before any line break, newest first. -/
  blanks : List Char := []
  /-- Whether a line break was read. -/
  broken : Bool := false
  /-- The first line break, unless it was escaped. -/
  first : List Char := []
  /-- The line breaks after the first, newest first. -/
  more : List Char := []
  deriving DecidableEq, Repr

namespace Gap

def empty : Gap := {}

/-- The gap that an escaped line break opens. -/
def escaped : Gap := { broken := true }

def addBlank (g : Gap) (c : Char) : Gap :=
  if g.broken then g else { g with blanks := c :: g.blanks }

/-- Read a line break. -/
def addBreak (g : Gap) (c : Char) : Gap :=
  if g.broken then { g with more := c :: g.more }
  else { broken := true, first := [c] }

/-- The text that a gap stands for, newest character first. -/
def reversedText (g : Gap) : List Char :=
  if g.broken then
    if g.first == ['\n'] then (if g.more.isEmpty then [' '] else g.more) else g.more ++ g.first
  else g.blanks

def isOpen (g : Gap) : Bool :=
  g.broken || !g.blanks.isEmpty

end Gap

end PromptRunner.Yaml
