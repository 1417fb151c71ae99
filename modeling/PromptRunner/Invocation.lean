import PromptRunner.Host
import PromptRunner.Prompt.Document
import PromptRunner.Requirements.Check
import PromptRunner.Variables.Bindings
/-!
# Invocations

From a prompt to the command line of the tool that runs it. All variables have to be bound, then the
requirements have to hold, and only then is there an invocation.
-/

namespace PromptRunner

structure InvocationSettings where
  /-- The program and its fixed arguments. -/
  program : List String
  /-- Whether the tool reports what it does. -/
  verbose : Bool := false
  /-- The tools that are granted to a prompt with commands that declares none. -/
  defaultTools : List String
  deriving Repr, DecidableEq

/-- A text and the command line that carries it. -/
structure Invocation where
  text : String
  argv : List String
  deriving Repr, DecidableEq

namespace Invocation

/-- The options of the tool for a verbose run. -/
def verboseOptions : List String :=
  ["--output-format", "stream-json", "--verbose"]

def commandGrant (command : String) : String :=
  "Bash(" ++ command ++ ":*)"

/-- The grants that requirements ask for: their commands, and their tools or the default ones. -/
def grants (r : Requirements) (defaultTools : List String) : List String :=
  if r.declaresGrants then r.commands.map commandGrant ++ r.tools.getD defaultTools else []

def modelArguments (model : Option String) : List String :=
  match model with
  | some model => ["--model", model]
  | none => []

def grantArguments (r : Requirements) (defaultTools : List String) : List String :=
  if (grants r defaultTools).isEmpty then []
  else ["--allowedTools", Text.separated "," (grants r defaultTools)]

/-- The arguments that grant directories. An argument is a text, so that a directory whose path is
none is granted as it is shown. -/
def directoryArguments (host : Host) (dirs : List String) : Except Failure (List String) :=
  (dirs.mapM host.expand).map fun paths => paths.flatMap fun path => ["--add-dir", Path.shown path]

def requirementArguments (requirements : Option Requirements) (settings : InvocationSettings)
    (host : Host) : Except Failure (List String) :=
  match requirements with
  | some r =>
    (directoryArguments host r.directories).map (grantArguments r settings.defaultTools ++ ·)
  | none => .ok []

def build (text : String) (model : Option String) (requirements : Option Requirements)
    (settings : InvocationSettings) (host : Host) : Except Failure (List String) :=
  (requirementArguments requirements settings host).map fun arguments =>
    settings.program ++ ["-p", text] ++ (if settings.verbose then verboseOptions else []) ++
      modelArguments model ++ arguments

def missingNames (p : Prompt) (b : Bindings) : List String :=
  p.names.filter fun name => !b.binds name

def checkVariables (p : Prompt) (b : Bindings) : Except Failure Unit :=
  if (missingNames p b).isEmpty then .ok () else .error (.missingVariables (missingNames p b))

def checkRequirements (p : Prompt) (fs : FileSystem) (host : Host) : Except Failure Unit :=
  match p.metadata.requirements with
  | some r => r.check fs host
  | none => .ok ()

/-- The text of a prompt with its variables filled in. -/
def textOf (p : Prompt) (b : Bindings) : String :=
  (p.body.fill b.find?).toText

def prepare (p : Prompt) (b : Bindings) (settings : InvocationSettings) (fs : FileSystem)
    (host : Host) : Except Failure Invocation :=
  match checkVariables p b with
  | .error f => .error f
  | .ok () =>
    match checkRequirements p fs host with
    | .error f => .error f
    | .ok () =>
      let text := textOf p b
      (build text p.metadata.model p.metadata.requirements settings host).map fun argv => ⟨text, argv⟩

end Invocation

end PromptRunner
