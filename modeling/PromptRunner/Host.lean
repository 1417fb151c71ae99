import PromptRunner.Failure
import PromptRunner.Path
/-!
# The host

What a prompt may know of the machine it runs on, besides its files: the current and home
directories, the environment and the search path for programs. The current directory may be out of
reach, and then no path can be completed.
-/

namespace PromptRunner

/-- The surroundings of a run. -/
structure Host where
  currentDir : Except FileError Path
  home : Option Path := none
  /-- The values of environment variables as texts. -/
  environment : List (String × String) := []
  searchPath : List Path := []
  deriving Repr

namespace Host

def valueOf? (host : Host) (name : String) : Option String :=
  host.environment.lookup name

def workingDir (host : Host) : Except Failure Path :=
  match host.currentDir with
  | .ok dir => .ok dir
  | .error e => .error (.currentDirUnknown e)

/-- The absolute path that a user means by `path`. -/
def expand (host : Host) (path : String) : Except Failure Path :=
  match host.workingDir with
  | .ok dir => .ok (Path.expand (Path.ofText path) dir host.home)
  | .error f => .error f

def colon : UInt8 := 0x3a

def splitSearchPath (path : Path) : List Path :=
  Text.splitAt colon path

def homeVariable : String := "HOME"

def searchPathVariable : String := "PATH"

/-- The home directory of an environment. An empty one is none. -/
def homeOf (environment : List (String × Path)) : Option Path :=
  (environment.lookup homeVariable).filter fun home => !home.isEmpty

def ofEnvironment (currentDir : Except FileError Path) (environment : List (String × Path)) :
    Host where
  currentDir
  home := homeOf environment
  environment := environment.map fun e => (e.1, Path.shown e.2)
  searchPath :=
    match environment.lookup searchPathVariable with
    | some path => splitSearchPath path
    | none => []

end Host

end PromptRunner
