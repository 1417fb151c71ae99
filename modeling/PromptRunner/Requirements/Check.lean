import PromptRunner.Failure
import PromptRunner.FileSystem
import PromptRunner.Host
import PromptRunner.Requirements
/-!
# Checking requirements

Commands, environment variables and directories are looked for on the machine, in this order. The
first category of which anything is missing decides the failure, which names all that is missing of
it.
-/

namespace PromptRunner.Requirements

/-- The paths at which a command may stand: an absolute path as it is, a path from the current
directory, and a bare name in the directories of the search path. -/
def commandPaths (host : Host) (command : String) : Except Failure (List Path) :=
  if Path.isAbsolute (Path.ofText command) then .ok [Path.ofText command]
  else if command.toList.contains '/' then
    host.workingDir.map fun dir => [Path.join dir (Path.ofText command)]
  else .ok (host.searchPath.map fun dir => Path.join dir (Path.ofText command))

def commandExists (fs : FileSystem) (host : Host) (command : String) : Except Failure Bool :=
  (commandPaths host command).map fun paths => paths.any fs.isExecutable

def directoryExists (fs : FileSystem) (host : Host) (dir : String) : Except Failure Bool :=
  (host.expand dir).map fs.isDirectory

/-- The entries that are not there, or the failure of the first of which this cannot be said. -/
def missing (exists? : String → Except Failure Bool) : List String → Except Failure (List String)
  | [] => .ok []
  | entry :: entries =>
    match exists? entry with
    | .error f => .error f
    | .ok found =>
      match missing exists? entries with
      | .error f => .error f
      | .ok rest => .ok (if found then rest else entry :: rest)

def missingCommands (r : Requirements) (fs : FileSystem) (host : Host) :
    Except Failure (List String) :=
  missing (commandExists fs host) r.commands

/-- The environment variables that are not bound. -/
def missingEnvironment (r : Requirements) (host : Host) : List String :=
  r.environment.filter fun name => (host.valueOf? name).isNone

def missingDirectories (r : Requirements) (fs : FileSystem) (host : Host) :
    Except Failure (List String) :=
  missing (directoryExists fs host) r.directories

/-- Fail if anything of a category is missing. -/
def demandNone (kind : RequirementKind) (entries : List String) : Except Failure Unit :=
  if entries.isEmpty then .ok () else .error (.unsatisfied kind entries)

def check (r : Requirements) (fs : FileSystem) (host : Host) : Except Failure Unit := do
  demandNone .commands (← r.missingCommands fs host)
  demandNone .environment (r.missingEnvironment host)
  demandNone .directories (← r.missingDirectories fs host)

end PromptRunner.Requirements
