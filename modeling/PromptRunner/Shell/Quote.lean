/-!
# Quoted words

A command line is written so that a shell reads back the same words: a word with a character that a
shell takes specially, and the empty word, stand between single quotes.
-/

namespace PromptRunner.Shell

def quoteMark : Char := '\x27'

def specialChars : List Char :=
  ['\n', '\x27', '|', '&', ';', '<', '>', '(', ')', '$', '\x60', '\\', '\x22', ' ', '\t', '*', '?',
    '[', '#', '~', '=', '%']

/-- A quote inside a quoted word closes it, stands escaped and opens it again. -/
def quoteBody : List Char → List Char
  | [] => []
  | c :: cs =>
    if c = quoteMark then quoteMark :: '\\' :: quoteMark :: quoteMark :: quoteBody cs
    else c :: quoteBody cs

def quoteWord (w : List Char) : List Char :=
  if w.isEmpty || w.any specialChars.contains then quoteMark :: (quoteBody w ++ [quoteMark]) else w

/-- The written form of a list of words, with one space between two words. -/
def joinWords (ws : List (List Char)) : List Char :=
  [' '].intercalate (ws.map quoteWord)

def join (ws : List String) : String :=
  String.ofList (joinWords (ws.map String.toList))

end PromptRunner.Shell
