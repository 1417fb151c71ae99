import PromptRunner.Command
/-!
# Footprints

What a command looks at: environment variables, paths and a directory that is listed. One file leads
to others, so that a footprint grows with what is known of the machine. It is complete once
everything in it is known.
-/

namespace PromptRunner.Footprint

open CommandLine

/-- The environment variables that every command looks at. -/
def standardNames : List String :=
  [Config.pathVariable, Config.directoryVariable, Host.homeVariable, Host.searchPathVariable]

/-- The context of a request, if it is known. -/
def context? (m : Machine) (r : Request) : Option Context :=
  (Context.resolve r.options m.files m.host m.configDir).toOption

def configPaths (m : Machine) (options : GlobalOptions) : List Path :=
  (options.config.or (Config.defaultPath? m.host m.configDir)).toList

def promptPaths (m : Machine) (c : Context) (name : String) : List Path :=
  (m.host.expand name).toOption.toList ++ Library.candidates c.promptsDir name

def argumentPath? (host : Host) (argument : String) : Option Path :=
  match Variables.assignment? argument with
  | some (_, '@' :: path) => (host.expand (String.ofList path)).toOption
  | _ => none

/-- The files that give the variables of a run. -/
def variablePaths (host : Host) (o : RunOptions) : List Path :=
  (o.file.bind fun file => (host.expand (Path.shown file)).toOption).toList ++
    o.arguments.filterMap (argumentPath? host)

def requirements? (m : Machine) (c : Context) (o : RunOptions) : Option Requirements :=
  (Command.loadPrompt m c o.prompt).toOption.bind fun p => p.2.metadata.requirements

/-- The files and directories that requirements refer to. -/
def requirementPaths (host : Host) (r : Requirements) : List Path :=
  r.commands.flatMap (fun command => (Requirements.commandPaths host command).toOption.getD []) ++
    r.directories.filterMap fun dir => (host.expand dir).toOption

def programPaths (host : Host) (c : Config) : List Path :=
  match c.program with
  | .ok (program :: _) =>
    let path := Path.ofText program
    if path.contains Path.slash then [path] else host.searchPath.map (Path.join · path)
  | _ => []

/-- The paths that a run looks at. -/
def runPaths (m : Machine) (c : Context) (o : RunOptions) : List Path :=
  promptPaths m c o.prompt ++ variablePaths m.host o ++
    ((requirements? m c o).map (requirementPaths m.host)).getD [] ++ programPaths m.host c.config

def paths (m : Machine) (r : Request) : List Path :=
  configPaths m r.options ++
    match context? m r, r.command with
    | some c, .run o => runPaths m c o
    | some c, .show name => promptPaths m c name
    | _, _ => []

def directory? (m : Machine) (r : Request) : Option Path :=
  match r.command with
  | .list => (context? m r).map Context.promptsDir
  | _ => none

def names (m : Machine) (r : Request) : List String :=
  standardNames ++
    match context? m r, r.command with
    | some c, .run o => ((requirements? m c o).map Requirements.environment).getD []
    | _, _ => []

/-- How often something known can lead to something new: from nothing to the configuration, from
there to the prompt, and from there to what it requires. -/
def rounds : Nat := 3

end PromptRunner.Footprint
