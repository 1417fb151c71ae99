import PromptRunner.Text.Basic
import PromptRunner.Text.Bytes
/-!
# Paths

A path is made of bytes, in which `/` separates parts; a leading `/` makes it absolute. Empty parts
and the part `.` stand for nothing, and `..` takes back the part before it. `normalize` applies
these rules without looking at any file; `expand` first completes a path with the home and current
directories. A path need not be text, and a message shows it as far as it is.
-/

namespace PromptRunner

abbrev Path := List UInt8

namespace Path

/-- The path that is written as a text. -/
abbrev ofText (s : String) : Path :=
  Text.bytes s

/-- The text that shows a path. -/
abbrev shown (path : Path) : String :=
  Text.ofBytes path

abbrev Part := List UInt8

def slash : UInt8 := 0x2f

def dot : UInt8 := 0x2e

def tilde : UInt8 := 0x7e

def selfPart : Part := [dot]

def parentPart : Part := [dot, dot]

def isAbsolute (path : Path) : Bool :=
  path.head? == some slash

def split (path : Path) : List Part :=
  Text.splitAt slash path

/-- Whether a part stands for a step of its own. -/
def isStep (p : Part) : Bool :=
  p ≠ [] && p ≠ selfPart

/-- The parts of a path that stand for steps. -/
def steps (path : Path) : List Part :=
  (split path).filter isStep

/-- Take a step from the directory reached by `trail`, whose newest part comes first. There is
nothing above the place where a path starts. -/
def walk (trail : List Part) (p : Part) : List Part :=
  if p = parentPart then trail.tail else p :: trail

/-- The parts that remain when every `..` has taken back the part before it. -/
def resolve (ps : List Part) : List Part :=
  (ps.foldl walk []).reverse

def render (absolute : Bool) (ps : List Part) : Path :=
  (if absolute then [slash] else []) ++ [slash].intercalate ps

/-- A path without `.`, `..` and empty parts, relative exactly if the given one is. -/
def normalize (path : Path) : Path :=
  render (isAbsolute path) (resolve (steps path))

/-- A path taken relative to a base; an absolute path ignores the base. -/
def join (base path : Path) : Path :=
  if isAbsolute path then path
  else if base.isEmpty || base.getLast? == some slash then base ++ path
  else base ++ slash :: path

/-- A path with a leading `~` replaced by the home directory, if there is one. -/
def completeHome (home : Option Path) (path : Path) : Path :=
  match home with
  | none => path
  | some home =>
    if path = [tilde] then home
    else if [tilde, slash].isPrefixOf path then join home (path.drop 2)
    else path

/-- The path that a user means by `path` in the directory `currentDir`. -/
def expand (path currentDir : Path) (home : Option Path) : Path :=
  normalize (join currentDir (completeHome home path))

/-- The last part of a path, unless it leads upwards. -/
def fileName? (path : Path) : Option Part :=
  match (steps path).getLast? with
  | some p => if p = parentPart then none else some p
  | none => none

/-- Whether the file name of a path ends in `ending`, letter case aside. The ending is written in
ASCII, and no character outside ASCII has a letter of it as its lower case. -/
def hasEnding (path : Path) (ending : String) : Bool :=
  match fileName? path with
  | some name => ending.toList.isSuffixOf ((shown name).toList.map Char.toLower)
  | none => ending.isEmpty

end Path

end PromptRunner
