import PromptRunner.Footprint
/-!
# The program

The command line carried out on the machine at hand. What the command may look at is loaded first,
and from then on everything is computed. A file counts as executable, and a tool is a script of the
kind that `Tool.runScript` carries out.
-/

namespace PromptRunner.Process

/-- The answer to a command line that is not carried out. -/
def usageText : String :=
  "Usage: prun [--debug] [--prompts-dir DIR] [--config PATH] COMMAND\n\n" ++
    "Commands:\n" ++
    "  run PROMPT [KEY=VALUE]... [--file PATH] [--json JSON] [-v] [--dry-run]\n" ++
    "  list\n" ++
    "  show PROMPT\n"

/-- The current directory, if it can be reached. -/
def currentDir : IO (Except FileError Path) := do
  try
    let dir ← IO.currentDir
    pure (.ok (Path.ofText dir.toString))
  catch _ => pure (.error .missing)

/-- Load what stands at a path into the known files. -/
def load (files : FileSystem) (path : Path) : IO FileSystem := do
  let .ok start ← currentDir | pure files
  let place := Path.join start path
  let here := (← IO.currentDir) / Path.shown path
  if ← here.isDir then pure (files.addDirectory place)
  else
    try pure (files.addFile place (← IO.FS.readBinFile here) true)
    catch _ => pure files

def pathsIn (directory : Path) : IO (List Path) := do
  try
    let found ← ((← IO.currentDir) / Path.shown directory).readDir
    pure (found.toList.map fun e => Path.join directory (Path.ofText e.fileName))
  catch _ => pure []

/-- The environment variables among names that are bound. -/
def environment (names : List String) : IO (List (String × Path)) :=
  names.filterMapM fun name => do pure ((← IO.getEnv name).map fun value => (name, Path.ofText value))

/-- The machine at hand as far as a footprint on another one goes. -/
def extend (m : Machine) (r : CommandLine.Request) : IO Machine := do
  let listed := (Footprint.directory? m r).toList
  let inside ← listed.mapM pathsIn
  let files ← (Footprint.paths m r ++ listed ++ inside.flatten).foldlM load m.files
  pure (Machine.ofProcess files m.host.currentDir (← environment (Footprint.names m r)))

/-- The machine at hand as far as a request looks at it. -/
def machine (r : CommandLine.Request) : IO Machine := do
  let dir ← currentDir
  let files :=
    match dir with
    | .ok path => (FileSystem.empty.startingAt (FileSystem.placeOf path)).addDirectory path
    | .error _ => .empty
  let start := Machine.ofProcess files dir (← environment Footprint.standardNames)
  (List.replicate Footprint.rounds ()).foldlM (fun m _ => extend m r) start

/-- Carry out a command line and give the exit code. -/
def run (words : List String) : IO UInt32 := do
  match CommandLine.parse words with
  | .error usage =>
    if usage.exitCode = 0 then IO.print usageText else IO.eprint usageText
    pure (UInt32.ofNat usage.exitCode)
  | .ok request =>
    let report := Command.carryOut (← machine request) request
    IO.print report.output
    IO.eprint report.errorText
    pure (UInt32.ofNat report.exitCode)

end PromptRunner.Process

def main (words : List String) : IO UInt32 :=
  PromptRunner.Process.run words
