import PromptRunner.Prompt.Document
import PromptRunner.Prompt.Library
/-!
# Listings

The text that lists the prompts of a library: a name on each line, and behind it the description of
the prompt, if it can be read and has one. The descriptions start in one column.
-/

namespace PromptRunner.Listing

/-- The description of a listed prompt, if it can be read and has one. -/
def describe (fs : FileSystem) (e : Library.Entry) : Option String :=
  match Prompt.load fs e.path with
  | .ok p => p.metadata.description
  | .error _ => none

/-- The width of the column of names, in bytes of the longest. -/
def nameWidth (es : List (Library.Entry × Option String)) : Nat :=
  es.foldr (fun e n => max (Text.byteCount e.1.name.toList) n) 0

def line (width : Nat) (e : Library.Entry × Option String) : String :=
  match e.2 with
  | some description => Text.padded width e.1.name ++ "  " ++ description
  | none => e.1.name

def lines (es : List (Library.Entry × Option String)) : List String :=
  es.map (line (nameWidth es))

def text (fs : FileSystem) (directory : Path) (es : List Library.Entry) : String :=
  if es.isEmpty then "No prompts found in " ++ Path.shown directory ++ "\n"
  else Text.separated "" ((lines (es.map fun e => (e, describe fs e))).map (· ++ "\n"))

end PromptRunner.Listing
