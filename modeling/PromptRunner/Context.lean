import PromptRunner.Config
import PromptRunner.Invocation
/-!
# Context

What every command starts from: the configuration, from the file that the command line or the
environment names, and the directory of prompts.
-/

namespace PromptRunner

/-- The options that every command takes. -/
structure GlobalOptions where
  promptsDir : Option String := none
  config : Option Path := none
  deriving Repr, DecidableEq

/-- The configuration and the directory of prompts of a run. -/
structure Context where
  config : Config
  promptsDir : Path
  deriving Repr, DecidableEq

namespace Context

/-- The configuration of a run. A file named on the command line has to exist. -/
def loadConfig (options : GlobalOptions) (fs : FileSystem) (host : Host)
    (configDir : Option Path) : Except Failure Config :=
  match options.config with
  | some path => Config.load fs path
  | none =>
    match Config.defaultPath? host configDir with
    | some path => Config.loadOrDefault fs path
    | none => .ok .default

def chooseDirectory (options : GlobalOptions) (config : Config) (host : Host) :
    Except Failure Path :=
  match options.promptsDir with
  | some dir => host.expand dir
  | none => config.directory host

def resolve (options : GlobalOptions) (fs : FileSystem) (host : Host) (configDir : Option Path) :
    Except Failure Context :=
  match loadConfig options fs host configDir with
  | .error f => .error f
  | .ok config =>
    match chooseDirectory options config host with
    | .error f => .error f
    | .ok promptsDir => .ok ⟨config, promptsDir⟩

def settings (c : Context) (verbose : Bool) : Except Failure InvocationSettings :=
  match c.config.program with
  | .ok program => .ok ⟨program, verbose, c.config.defaultTools⟩
  | .error f => .error (.config f none)

end Context

end PromptRunner
