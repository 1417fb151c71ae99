import PromptRunner.Failure
import PromptRunner.FileSystem
import PromptRunner.Host
import PromptRunner.Shell.Split
import PromptRunner.Text.Blank
import PromptRunner.Yaml.Decode
/-!
# Configuration

Where prompts are kept, which program runs them and which tools it is granted when a prompt does not
say. A configuration is a YAML mapping in which everything may be left out.
-/

namespace PromptRunner

/-- The settings of a user. -/
structure Config where
  promptsDir : Option String := none
  command : String := "claude"
  defaultTools : List String := ["Read", "Grep", "Glob", "LS"]
  deriving Repr, DecidableEq

namespace Config

def default : Config := {}

def defaultPromptsDir : String := "~/.prompts"

/-- The words of the command: the program and its fixed arguments. -/
def program (c : Config) : Except ConfigFault (List String) :=
  match Shell.split? c.command with
  | none => .error (.openQuote c.command)
  | some [] => .error .noCommand
  | some words => .ok words

/-- Check that there is a program and that no tool is blank. -/
def validate (c : Config) : Except ConfigFault Unit :=
  match c.program with
  | .error f => .error f
  | .ok _ => if c.defaultTools.any Text.isBlank then .error .blankTool else .ok ()

open Yaml

/-- Read settings from a mapping. Other fields are left aside. -/
def decode (d : Document) (t : Tree) : Decoder Config := do
  let fs ← Decode.fields d t
  let promptsDir ← Decode.field "prompts_dir" fs none (Decode.optionalText d)
  let command ← Decode.field "command" fs default.command (Decode.text d)
  let defaultTools ← Decode.field "default_tools" fs default.defaultTools (Decode.texts d)
  pure { promptsDir, command, defaultTools }

def ofText (text : String) : Except ConfigFault Config :=
  if Text.isBlank text then .ok default
  else
    match (Document.ofText? text).bind fun d => d.decode (decode d) with
    | none => .error .malformed
    | some c =>
      match c.validate with
      | .ok () => .ok c
      | .error f => .error f

def load (fs : FileSystem) (path : Path) : Except Failure Config :=
  match fs.readText path with
  | .error e => .error (.fileUnreadable .config (Path.shown path) e)
  | .ok text =>
    match ofText text with
    | .ok c => .ok c
    | .error f => .error (.config f (some (Path.shown path)))

/-- The settings in a file, or the standard ones if no file is found. -/
def loadOrDefault (fs : FileSystem) (path : Path) : Except Failure Config :=
  if fs.contains path then load fs path else .ok default

def directory (c : Config) (host : Host) : Except Failure Path :=
  host.expand (c.promptsDir.getD defaultPromptsDir)

def pathVariable : String := "PRUN_CONFIG"

def fileIn (directory : Path) : Path :=
  Path.join (Path.join directory (Path.ofText "prun")) (Path.ofText "config.yaml")

/-- The file of the configuration: the one that the environment names, else the one in the directory
of configurations, if there is such a directory. -/
def defaultPath? (host : Host) (configDir : Option Path) : Option Path :=
  match (host.valueOf? pathVariable).filter (fun p => !p.isEmpty) with
  | some path => some (Path.ofText path)
  | none => configDir.map fileIn

def directoryVariable : String := "XDG_CONFIG_HOME"

/-- The directory of configurations of an environment: an absolute path that it gives, else one
inside the home directory. -/
def directoryOf (environment : List (String × Path)) : Option Path :=
  match (environment.lookup directoryVariable).filter Path.isAbsolute with
  | some dir => some dir
  | none => (Host.homeOf environment).map fun home => Path.join home (Path.ofText ".config")

end Config

end PromptRunner
