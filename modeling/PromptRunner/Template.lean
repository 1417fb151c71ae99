import PromptRunner.Text.WordChar
import PromptRunner.Text.NameSet
/-!
# Template text

A text refers to a variable by a token: two opening braces, one or more word characters and two
closing braces. `pieces` reads a text from left to right into single characters and tokens; the
names of a text and its filled form are both read off its pieces, so they always see the same
tokens. A value that is put in for a token is not read again.
-/

namespace PromptRunner.Template

/-- A part of a template text. -/
inductive Piece where
  | char (c : Char)
  | token (name : List Char)
  deriving DecidableEq, Repr

/-- The name of the token that a text starts with. -/
def tokenAt : List Char → Option (List Char)
  | '\x7b' :: '\x7b' :: cs =>
    match cs.takeWhile Text.isWord, cs.dropWhile Text.isWord with
    | w :: ws, '\x7d' :: '\x7d' :: _ => some (w :: ws)
    | _, _ => none
  | _ => none

/-- The pieces of a text after its first `skip` characters, which belong to a token already read. -/
def piecesFrom : Nat → List Char → List Piece
  | _, [] => []
  | skip + 1, _ :: cs => piecesFrom skip cs
  | 0, c :: cs =>
    match tokenAt (c :: cs) with
    | some name => .token name :: piecesFrom (name.length + 3) cs
    | none => .char c :: piecesFrom 0 cs

/-- The pieces of a text: at each place the token that starts there, else the single character. -/
def pieces (cs : List Char) : List Piece :=
  piecesFrom 0 cs

def tokenText (name : List Char) : List Char :=
  '\x7b' :: '\x7b' :: (name ++ ['\x7d', '\x7d'])

def Piece.text : Piece → List Char
  | .char c => [c]
  | .token name => tokenText name

def Piece.name? : Piece → Option String
  | .char _ => none
  | .token name => some (String.ofList name)

def Piece.fill (lookup : String → Option String) : Piece → List Char
  | .char c => [c]
  | .token name =>
    match lookup (String.ofList name) with
    | some value => value.toList
    | none => tokenText name

/-- The names of the tokens of a text in order of occurrence. -/
def tokens (text : String) : List String :=
  (pieces text.toList).filterMap Piece.name?

def names (text : String) : List String :=
  Text.nameSet (tokens text)

def fill (lookup : String → Option String) (text : String) : String :=
  String.ofList ((pieces text.toList).flatMap (Piece.fill lookup))

end PromptRunner.Template
