import PromptRunner.CommandLine
import PromptRunner.Prompt.Details
import PromptRunner.Prompt.Listing
import PromptRunner.Shell.Quote
import PromptRunner.Tool.Launch
import PromptRunner.Variables.Sources
/-!
# Commands

Carrying out a command: running a prompt, listing the prompts of the library, and showing what a
prompt says about itself. What comes of it is a report, which also tells which command lines were
handed to the tool; there is one at most, and only when everything has been checked.
-/

namespace PromptRunner

/-- The machine that a command is carried out on. -/
structure Machine where
  files : FileSystem
  host : Host
  /-- The directory of configurations, if there is one. -/
  configDir : Option Path
  /-- What comes of handing a command line to the tool. -/
  tool : List String → Except Failure Tool.Output

structure Report where
  /-- The exit code, unless the command fails. -/
  outcome : Except Failure Nat
  output : String := ""
  warnings : List Warning := []
  /-- The command lines that were handed to the tool. -/
  launched : List (List String) := []

namespace Report

def failed (f : Failure) (warnings : List Warning) : Report :=
  { outcome := .error f, warnings }

/-- The exit code of the process. A code that does not fit into a byte counts as a mistake of the
user. -/
def exitCode (r : Report) : Nat :=
  match r.outcome with
  | .ok code => if code < 256 then code else userErrorCode
  | .error f => f.exitCode

/-- The text on the error output: a line for each warning and one for a failure. -/
def errorText (r : Report) : String :=
  Text.separated "" (r.warnings.map fun w => "WARN " ++ w.message ++ "\n") ++
    match r.outcome with
    | .ok _ => ""
    | .error f => "Error: " ++ f.message ++ "\n"

end Report

namespace Command

open CommandLine

/-- The path of a prompt and the prompt itself. -/
def loadPrompt (m : Machine) (c : Context) (name : String) : Except Failure (Path × Prompt) :=
  match Library.resolve m.files m.host c.promptsDir name with
  | .error f => .error f
  | .ok path =>
    match Prompt.load m.files path with
    | .error f => .error f
    | .ok prompt => .ok (path, prompt)

/-- An invocation, or why there is none, with the warnings up to there. -/
structure Prepared where
  invocation : Except Failure Invocation
  warnings : List Warning := []

/-- The sources of the variables of a run. -/
def sourcesOf (o : RunOptions) : Variables.Sources :=
  ⟨o.file, o.json, o.arguments⟩

/-- The invocation for a prompt and the variables of a run. -/
def prepareWith (m : Machine) (c : Context) (verbose : Bool) (p : Prompt) (b : Bindings) :
    Except Failure Invocation :=
  match c.settings verbose with
  | .error f => .error f
  | .ok settings => Invocation.prepare p b settings m.files m.host

/-- Do everything for a run that comes before it. -/
def prepareRun (m : Machine) (c : Context) (o : RunOptions) : Prepared :=
  match loadPrompt m c o.prompt with
  | .error f => ⟨.error f, []⟩
  | .ok (_, prompt) =>
    match (sourcesOf o).assemble m.files m.host with
    | .error f => ⟨.error f, prompt.warnings⟩
    | .ok assembled =>
      ⟨prepareWith m c o.verbose prompt assembled.bindings, prompt.warnings ++ assembled.warnings⟩

/-- The text of a run that is only shown: the command line and the text that it carries. -/
def preview (i : Invocation) : String :=
  Shell.join i.argv ++ "\n\n" ++ i.text ++ "\n"

def launch (m : Machine) (i : Invocation) (warnings : List Warning) : Report :=
  match m.tool i.argv with
  | .error f => { outcome := .error f, warnings, launched := [i.argv] }
  | .ok output =>
    { outcome := .ok output.ending.exitCode, output := output.text, warnings, launched := [i.argv] }

def runPrompt (m : Machine) (c : Context) (o : RunOptions) : Report :=
  let prepared := prepareRun m c o
  match prepared.invocation with
  | .error f => .failed f prepared.warnings
  | .ok i =>
    if o.dryRun then
      { outcome := .ok successCode, output := preview i, warnings := prepared.warnings }
    else launch m i prepared.warnings

def listPrompts (m : Machine) (c : Context) : Report :=
  match Library.available m.files c.promptsDir with
  | .error f => .failed f []
  | .ok es => { outcome := .ok successCode, output := Listing.text m.files c.promptsDir es }

def showPrompt (m : Machine) (c : Context) (name : String) : Report :=
  match loadPrompt m c name with
  | .error f => .failed f []
  | .ok (path, p) =>
    { outcome := .ok successCode, output := Prompt.details path p, warnings := p.warnings }

def carryOut (m : Machine) (r : Request) : Report :=
  match Context.resolve r.options m.files m.host m.configDir with
  | .error f => .failed f []
  | .ok c =>
    match r.command with
    | .run o => runPrompt m c o
    | .list => listPrompts m c
    | .show name => showPrompt m c name

end Command

/-- The machine of a process: its host is read off its environment, and its tools are the scripts
among its files. -/
def Machine.ofProcess (files : FileSystem) (currentDir : Except FileError Path)
    (environment : List (String × Path)) : Machine where
  files
  host := Host.ofEnvironment currentDir environment
  configDir := Config.directoryOf environment
  tool := Tool.launch files (Tool.searchPathOf environment)

end PromptRunner
