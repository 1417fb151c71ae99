import PromptRunner.FileSystem
import PromptRunner.Failure
import PromptRunner.Host
/-!
# The prompt library

A directory of prompts. A prompt is asked for by a path or by its name in the library, which is the
name of its file without the ending. Where several files have one name, the order of `endings`
decides. The name of a file that is no text is listed as it is shown.
-/

namespace PromptRunner.Library

def endings : List String :=
  [".prompt.yaml", ".md", ".txt"]

/-- A prompt of a library. -/
structure Entry where
  name : String
  path : Path
  deriving DecidableEq, Repr

/-- The files that a name may stand for in a library. A name with a dot is none. -/
def candidates (directory : Path) (name : String) : List Path :=
  if name.toList.contains '.' then []
  else endings.map fun ending => Path.join directory (Path.ofText (name ++ ending))

/-- The file of the prompt that is asked for: the one at this path, or the first candidate there
is. -/
def resolve (fs : FileSystem) (host : Host) (directory : Path) (name : String) :
    Except Failure Path :=
  match host.expand name with
  | .error f => .error f
  | .ok direct =>
    if fs.isFile direct then .ok direct
    else
      match (candidates directory name).find? fs.isFile with
      | some path => .ok path
      | none =>
        .error (.promptNotFound name ((direct :: candidates directory name).map Path.shown))

def stem? (fileName ending : String) : Option String :=
  if ending.toList.isSuffixOf fileName.toList then
    some (String.ofList (fileName.toList.take (fileName.length - ending.length)))
  else none

/-- A file of a library: the name of its prompt, the place of its ending, and its path. -/
structure Found where
  name : String
  rank : Nat
  path : Path
  deriving DecidableEq, Repr

/-- The prompt in the file with a name, if it has one. The first ending that fits counts, and
something has to stand before it. -/
def found? (fs : FileSystem) (directory : Path) (fileName : Path.Part) : Option Found :=
  let path := Path.join directory fileName
  let shown := Path.shown fileName
  if fs.isFile path then
    match endings.zipIdx.findSome? fun (ending, rank) => (stem? shown ending).map (·, rank) with
    | some (name, rank) => if name.isEmpty then none else some ⟨name, rank, path⟩
    | none => none
  else none

/-- The order of a listing: by name, and of one name by ending. -/
def Found.precedes (a b : Found) : Bool :=
  a.name < b.name || (a.name == b.name && a.rank ≤ b.rank)

/-- Put a prompt into its place in a listing. -/
def insertFound (a : Found) : List Found → List Found
  | [] => [a]
  | b :: bs => if a.precedes b then a :: b :: bs else b :: insertFound a bs

/-- The prompts in the files with the given names, in the order of a listing. -/
def entriesAmong (fs : FileSystem) (directory : Path) (fileNames : List Path.Part) : List Entry :=
  ((fileNames.filterMap (found? fs directory)).foldr insertFound []).map fun f => ⟨f.name, f.path⟩

/-- The prompts of a library in order. A library that does not exist has none. -/
def available (fs : FileSystem) (directory : Path) : Except Failure (List Entry) :=
  match fs.list directory with
  | .ok fileNames => .ok (entriesAmong fs directory fileNames)
  | .error .missing => .ok []
  | .error e => .error (.promptsUnreadable (Path.shown directory) e)

end PromptRunner.Library
