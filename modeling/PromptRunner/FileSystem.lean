import PromptRunner.FileError
import PromptRunner.Path
/-!
# The file system

A tree of directories and files without links, kept as a list from places to what is there. A place
is the list of names that lead to it from the root, and the root is always a directory. A path is
followed part by part, so that `..` is taken only from a directory that exists. Some directories may
not be searched, so that nothing in them is found, and some files and directories may not be read.
-/

namespace PromptRunner

/-- What stands at a place. -/
inductive Entry where
  | directory
  | file (content : ByteArray) (executable : Bool)

/-- A place: the names that lead to it from the root. -/
abbrev Place := List Path.Part

/-- Whether a part of a path can be the name of something. -/
def isFileName (p : Path.Part) : Bool :=
  Path.isStep p && p != Path.parentPart && !p.contains Path.slash

theorem isFileName_iff {p : Path.Part} :
    isFileName p = true ↔ p ≠ [] ∧ p ≠ Path.selfPart ∧ p ≠ Path.parentPart ∧ Path.slash ∉ p := by
  simp [isFileName, Path.isStep, and_assoc]

/-- The directories and files of a machine, and the place where relative paths start. Nothing stands
twice, and every place is made of names. -/
structure FileSystem where
  entries : List (Place × Entry) := []
  workingPlace : Place := []
  /-- The directories that may not be searched. -/
  closed : List Place := []
  /-- The files and directories that may not be read. -/
  unreadable : List Place := []
  unique : (entries.map Prod.fst).Nodup := by simp
  named : ∀ e ∈ entries, e.1.all isFileName := by simp

namespace FileSystem

def empty : FileSystem := {}

/-- The same files with another place where relative paths start. -/
def startingAt (fs : FileSystem) (place : Place) : FileSystem :=
  { fs with workingPlace := place }

def nameLimit : Nat := 255

/-- The number of bytes that a path has to stay below. -/
def pathLimit : Nat := 4096

def at? (fs : FileSystem) (place : Place) : Option Entry :=
  if place.isEmpty then some .directory else fs.entries.lookup place

/-- Take one part of a path from a place. -/
def step (fs : FileSystem) (place : Place) (part : Path.Part) : Except FileError Place :=
  match fs.at? place with
  | some .directory =>
    if part.isEmpty then .ok place
    else if fs.closed.contains place then .error .permissionDenied
    else if part == Path.selfPart then .ok place
    else if part == Path.parentPart then .ok place.dropLast
    else if nameLimit < part.length then .error .nameTooLong
    else if (fs.at? (place ++ [part])).isSome then .ok (place ++ [part])
    else .error .missing
  | some (.file _ _) => .error .notDirectory
  | none => .error .missing

def follow (fs : FileSystem) : Place → List Path.Part → Except FileError Place
  | place, [] => .ok place
  | place, part :: parts =>
    match fs.step place part with
    | .ok next => fs.follow next parts
    | .error e => .error e

/-- The place that a path leads to. -/
def locate (fs : FileSystem) (path : Path) : Except FileError Place :=
  if path.contains 0 then .error .nulInName
  else if path.isEmpty then .error .missing
  else if pathLimit ≤ path.length then .error .nameTooLong
  else fs.follow (if Path.isAbsolute path then [] else fs.workingPlace) (Path.split path)

def find (fs : FileSystem) (path : Path) : Except FileError Entry :=
  match fs.locate path with
  | .ok place =>
    match fs.at? place with
    | some e => .ok e
    | none => .error .missing
  | .error e => .error e

def contains (fs : FileSystem) (path : Path) : Bool :=
  match fs.find path with
  | .ok _ => true
  | .error _ => false

def isFile (fs : FileSystem) (path : Path) : Bool :=
  match fs.find path with
  | .ok (.file _ _) => true
  | _ => false

def isDirectory (fs : FileSystem) (path : Path) : Bool :=
  match fs.find path with
  | .ok .directory => true
  | _ => false

def isExecutable (fs : FileSystem) (path : Path) : Bool :=
  match fs.find path with
  | .ok (.file _ executable) => executable
  | _ => false

/-- Whether what a path leads to may be read. -/
def mayRead (fs : FileSystem) (path : Path) : Bool :=
  match fs.locate path with
  | .ok place => !fs.unreadable.contains place
  | .error _ => false

def readBytes (fs : FileSystem) (path : Path) : Except FileError ByteArray :=
  match fs.find path with
  | .error e => .error e
  | .ok entry =>
    if fs.mayRead path then
      match entry with
      | .file content _ => .ok content
      | .directory => .error .isDirectory
    else .error .permissionDenied

def readText (fs : FileSystem) (path : Path) : Except FileError String :=
  match fs.readBytes path with
  | .ok content =>
    match String.fromUTF8? content with
    | some text => .ok text
    | none => .error .notText
  | .error e => .error e

/-- The name of a place directly inside a directory. -/
def nameIn? (directory place : Place) : Option Path.Part :=
  match place.getLast? with
  | some name => if place.dropLast == directory then some name else none
  | none => none

def namesIn (fs : FileSystem) (place : Place) : List Path.Part :=
  fs.entries.filterMap fun e => nameIn? place e.1

def list (fs : FileSystem) (path : Path) : Except FileError (List Path.Part) :=
  match fs.locate path with
  | .ok place =>
    match fs.at? place with
    | some .directory =>
      if fs.unreadable.contains place then .error .permissionDenied
      else .ok (fs.namesIn place)
    | _ => .error .notDirectory
  | .error e => .error e

def others (fs : FileSystem) (place : Place) : List (Place × Entry) :=
  fs.entries.filter fun e => e.1 != place

theorem mem_of_mem_others {fs : FileSystem} {place : Place} {e : Place × Entry}
    (h : e ∈ fs.others place) : e ∈ fs.entries :=
  (List.mem_filter.1 h).1

theorem nodup_filter {p : Place × Entry → Bool} {es : List (Place × Entry)}
    (h : (es.map Prod.fst).Nodup) : ((es.filter p).map Prod.fst).Nodup :=
  h.sublist ((List.filter_sublist).map Prod.fst)

theorem not_mem_others (fs : FileSystem) (place : Place) :
    place ∉ (fs.others place).map Prod.fst := by
  intro h
  obtain ⟨e, he, rfl⟩ := List.mem_map.1 h
  simpa using (List.mem_filter.1 he).2

/-- Set what stands at a place, which has to be made of names. -/
def set (fs : FileSystem) (place : Place) (entry : Entry) : FileSystem :=
  if h : place.all isFileName then
    { fs with
      entries := (place, entry) :: fs.others place
      unique := List.nodup_cons.2 ⟨fs.not_mem_others place, nodup_filter fs.unique⟩
      named := fun e he => by
        rcases List.mem_cons.1 he with rfl | he
        · exact h
        · exact fs.named e (mem_of_mem_others he) }
  else fs

/-- Make a place a directory, unless something stands there already. -/
def makeDirectory (fs : FileSystem) (place : Place) : FileSystem :=
  if (fs.at? place).isSome then fs else fs.set place .directory

/-- Make each place that the given parts lead to from a place a directory. -/
def makeDirectoriesFrom (fs : FileSystem) (place : Place) : List Path.Part → FileSystem
  | [] => fs
  | part :: parts =>
    (fs.makeDirectory (place ++ [part])).makeDirectoriesFrom (place ++ [part]) parts

/-- Make every place on the way to a place, and the place itself, a directory. -/
def makeDirectories (fs : FileSystem) (place : Place) : FileSystem :=
  fs.makeDirectoriesFrom [] place

/-- The place that a path names when nothing on its way is looked at. -/
def placeOf (path : Path) : Place :=
  Path.resolve (Path.steps path)

/-- Add a directory with all directories on its way. -/
def addDirectory (fs : FileSystem) (path : Path) : FileSystem :=
  fs.makeDirectories (placeOf path)

/-- Add a file with all directories on its way. -/
def addFile (fs : FileSystem) (path : Path) (content : ByteArray) (executable : Bool) :
    FileSystem :=
  (fs.makeDirectories (placeOf path).dropLast).set (placeOf path) (.file content executable)

/-- Remove a place and everything below it. -/
def remove (fs : FileSystem) (path : Path) : FileSystem :=
  { fs with
    entries := fs.entries.filter fun e => !(placeOf path).isPrefixOf e.1
    unique := nodup_filter fs.unique
    named := fun e he => fs.named e (List.mem_filter.1 he).1 }

end FileSystem

end PromptRunner
