import PromptRunner.Json.Fault
/-!
# Reading with places

The rest of a text that is being read and the place reached in it. A fault lies either at this place
or one byte ahead, behind the first byte of the next character.
-/

namespace PromptRunner.Json

def Place.behind (p : Place) (c : Char) : Place :=
  if c == '\n' then ⟨p.line + 1, 0⟩ else ⟨p.line, p.column + c.utf8Size⟩

def Place.ahead (p : Place) : Nat → List Char → Place
  | 0, _ => p
  | _, [] => p
  | n + 1, c :: cs =>
    if c == '\n' then ahead ⟨p.line + 1, 0⟩ n cs
    else if n + 1 < c.utf8Size then ⟨p.line, p.column + n + 1⟩
    else ahead ⟨p.line, p.column + c.utf8Size⟩ (n + 1 - c.utf8Size) cs
termination_by structural _ cs => cs

/-- The rest of a text and the place reached. -/
structure Cursor where
  rest : List Char
  place : Place := ⟨1, 0⟩
  deriving DecidableEq, Repr

/-- The result of reading: a value and the rest of the text, or a fault. -/
abbrev Reading (α : Type) := Except Fault (α × Cursor)

namespace Cursor

def peek? (c : Cursor) : Option Char :=
  c.rest.head?

def skip (c : Cursor) : Cursor :=
  match c.rest with
  | [] => c
  | x :: rest => ⟨rest, c.place.behind x⟩

def fault {α : Type} (c : Cursor) (cause : Cause) : Except Fault α :=
  .error ⟨cause, c.place⟩

/-- A fault one byte ahead. -/
def faultAhead {α : Type} (c : Cursor) (cause : Cause) : Except Fault α :=
  .error ⟨cause, c.place.ahead 1 c.rest⟩

def isSpace (c : Char) : Bool :=
  c == ' ' || c == '\n' || c == '\t' || c == '\r'

def skipSpaceFrom (place : Place) : List Char → Cursor
  | [] => ⟨[], place⟩
  | x :: rest => if isSpace x then skipSpaceFrom (place.behind x) rest else ⟨x :: rest, place⟩

def skipSpace (c : Cursor) : Cursor :=
  skipSpaceFrom c.place c.rest

/-- Step over decimal digits, and tell how many there were. -/
def skipDigitsFrom (count : Nat) (place : Place) : List Char → Nat × Cursor
  | [] => (count, ⟨[], place⟩)
  | x :: rest =>
    if x.isDigit then skipDigitsFrom (count + 1) (place.behind x) rest else (count, ⟨x :: rest, place⟩)

def skipDigits (c : Cursor) : Nat × Cursor :=
  skipDigitsFrom 0 c.place c.rest

/-- Step over a word, whose first character is already behind. -/
def word (c : Cursor) : List Char → Except Fault Cursor
  | [] => .ok c
  | w :: ws =>
    match c.peek? with
    | none => c.fault .endInValue
    | some x => if x == w then c.skip.word ws else c.faultAhead .expectedWord

end Cursor

end PromptRunner.Json
