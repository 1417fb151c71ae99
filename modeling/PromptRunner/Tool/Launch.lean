import PromptRunner.Failure
import PromptRunner.FileSystem
import PromptRunner.Host
import PromptRunner.Tool.Script
/-!
# Launching a tool

The program of an invocation is a path, or a name that is looked for in the directories of the
search path. It has to be a file that may be executed and that opens with the signs of a script.
-/

namespace PromptRunner.Tool

def standardPath : List Path :=
  ["/bin", "/usr/bin"].map Path.ofText

/-- The directories that an environment lets search. -/
def searchPathOf (environment : List (String × Path)) : List Path :=
  match environment.lookup Host.searchPathVariable with
  | some path => Host.splitSearchPath path
  | none => standardPath

def argumentLimit : Nat := 131071

def scriptSigns : List UInt8 := [0x23, 0x21]

def scriptOf (content : ByteArray) : Except FileError String :=
  if content.toList.take 2 == scriptSigns then .ok ((String.fromUTF8? content).getD "")
  else .error .notExecutableFormat

def scriptAt (fs : FileSystem) (path : Path) : Except FileError String :=
  match fs.find path with
  | .error e => .error e
  | .ok .directory => .error .permissionDenied
  | .ok (.file content executable) =>
    if executable then scriptOf content else .error .permissionDenied

/-- Look for a program in directories. A file that may not be executed is passed over, but if
nothing else is found it decides the error. -/
def searchScript (fs : FileSystem) (program : Path) (fallback : FileError) :
    List Path → Except FileError String
  | [] => .error fallback
  | dir :: dirs =>
    match scriptAt fs (Path.join dir program) with
    | .ok script => .ok script
    | .error .missing => searchScript fs program fallback dirs
    | .error .notDirectory => searchScript fs program fallback dirs
    | .error .permissionDenied => searchScript fs program .permissionDenied dirs
    | .error e => .error e

def findScript (fs : FileSystem) (searchPath : List Path) (program : Path) :
    Except FileError String :=
  if program.isEmpty then .error .missing
  else if program.contains Path.slash then scriptAt fs program
  else if FileSystem.nameLimit < program.length then .error .nameTooLong
  else searchScript fs program .missing searchPath

def start (fs : FileSystem) (searchPath : List Path) (program : String)
    (arguments : List String) : Except FileError Output :=
  if (program :: arguments).any (fun a => a.toList.contains '\x00') then .error .nulInArgument
  else
    match findScript fs searchPath (Path.ofText program) with
    | .error e => .error e
    | .ok script =>
      if (program :: arguments).any (fun a => argumentLimit < Text.byteCount a.toList) then
        .error .argumentsTooLong
      else .ok (runScript script arguments)

def launch (fs : FileSystem) (searchPath : List Path) (argv : List String) :
    Except Failure Output :=
  match argv with
  | [] => .error .noProgram
  | program :: arguments =>
    match start fs searchPath program arguments with
    | .ok output => .ok output
    | .error e => .error (.notStarted program e)

/-- The exit code that a tool passes on. -/
def Ending.exitCode : Ending → Nat
  | .exited code => code
  | .stopped => toolFailureCode

end PromptRunner.Tool
