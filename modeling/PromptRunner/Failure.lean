import PromptRunner.FileError
import PromptRunner.Json.Fault
import PromptRunner.Text.Basic
/-!
# Failures and warnings

Everything that can keep a prompt from being run, by cause. A cause belongs to a kind, the kind
decides the exit code, and `message` gives the wording. What exactly is wrong with a YAML text is
not told apart; `<yaml>` holds its place in a message.
-/

namespace PromptRunner

/-- The kinds of failures. -/
inductive FailureKind where
  | notFound
  | unsupportedFormat
  | malformedInput
  | missingVariable
  | requirementUnsatisfied
  | io
  | toolFailure
  deriving DecidableEq, Repr

def successCode : Nat := 0

def userErrorCode : Nat := 1

def requirementCode : Nat := 2

def toolFailureCode : Nat := 3

def FailureKind.exitCode : FailureKind → Nat
  | .requirementUnsatisfied => requirementCode
  | .toolFailure => toolFailureCode
  | _ => userErrorCode

/-- What a file is read for. -/
inductive FileRole where
  | prompt
  | variableFile
  | value (variableName : String)
  | config
  deriving DecidableEq, Repr

def FileRole.message : FileRole → String
  | .prompt => "prompt file"
  | .variableFile => "variable file"
  | .value name => "file for variable '" ++ name ++ "'"
  | .config => "config file"

/-- The categories of requirements that are checked. -/
inductive RequirementKind where
  | commands
  | environment
  | directories
  deriving DecidableEq, Repr

def RequirementKind.message : RequirementKind → String
  | .commands => "required commands not found"
  | .environment => "required environment variables not set"
  | .directories => "required directories do not exist"

/-- What is wrong with a configuration. -/
inductive ConfigFault where
  | malformed
  | openQuote (command : String)
  | noCommand
  | blankTool
  deriving DecidableEq, Repr

def ConfigFault.message : ConfigFault → String
  | .malformed => "failed to parse config YAML: <yaml>"
  | .openQuote command =>
    "config validation failed: cannot parse command '" ++ command ++ "': missing closing quote\n" ++
      "Fix: check for unmatched quotes or invalid escape sequences."
  | .noCommand => "config validation failed: command must not be empty"
  | .blankTool => "config validation failed: default_tools entries must be non-empty"

/-- Why a prompt is not run. Paths are shown as texts. -/
inductive Failure where
  | currentDirUnknown (error : FileError)
  | promptNotFound (name : String) (tried : List String)
  | fileMissing (role : FileRole) (path : String)
  | fileUnreadable (role : FileRole) (path : String) (error : FileError)
  | promptsUnreadable (directory : String) (error : FileError)
  | promptFormat (path : String)
  | variablesFormat (path : String)
  | promptNotText (path : String)
  | promptMalformed (path : String)
  | variablesMalformed (path : String)
  | jsonMalformed (fault : Json.Fault) (file : Option String)
  | notScalar (name found : String) (file : Option String)
  | config (fault : ConfigFault) (file : Option String)
  | missingVariables (names : List String)
  | unsatisfied (kind : RequirementKind) (entries : List String)
  | noProgram
  | notStarted (program : String) (error : FileError)
  deriving DecidableEq, Repr

/-- The mention of a file behind a message. -/
def inFile (file : Option String) : String :=
  match file with
  | some path => " (in '" ++ path ++ "')"
  | none => ""

namespace Failure

def kind : Failure → FailureKind
  | .currentDirUnknown _ => .io
  | .promptNotFound _ _ => .notFound
  | .fileMissing _ _ => .notFound
  | .fileUnreadable _ _ _ => .io
  | .promptsUnreadable _ _ => .io
  | .promptFormat _ => .unsupportedFormat
  | .variablesFormat _ => .unsupportedFormat
  | .promptNotText _ => .malformedInput
  | .promptMalformed _ => .malformedInput
  | .variablesMalformed _ => .malformedInput
  | .jsonMalformed _ _ => .malformedInput
  | .notScalar _ _ _ => .malformedInput
  | .config _ _ => .malformedInput
  | .missingVariables _ => .missingVariable
  | .unsatisfied _ _ => .requirementUnsatisfied
  | .noProgram => .toolFailure
  | .notStarted _ _ => .toolFailure

def exitCode (f : Failure) : Nat :=
  f.kind.exitCode

def message : Failure → String
  | .currentDirUnknown error => "failed to get current working directory: " ++ error.message
  | .promptNotFound name tried =>
    "prompt '" ++ name ++ "' not found\n\nTried:\n" ++ Text.separated "\n" (tried.map ("  " ++ ·)) ++
      "\n\nFix: run \x60prun list\x60 to see available prompts."
  | .fileMissing role path => role.message ++ " '" ++ path ++ "' does not exist"
  | .fileUnreadable role path error =>
    "failed to read " ++ role.message ++ " '" ++ path ++ "': " ++ error.message
  | .promptsUnreadable directory error =>
    "failed to read prompts directory '" ++ directory ++ "': " ++ error.message
  | .promptFormat path =>
    "unsupported file format: '" ++ path ++
      "'\n\nPrompt files must end in .prompt.yaml, .yaml, .yml, .md or .txt"
  | .variablesFormat path =>
    "unsupported file format: '" ++ path ++
      "'\n\nVariable files must end in .json, .yaml or .yml"
  | .promptNotText path => "prompt file '" ++ path ++ "' is not valid UTF-8"
  | .promptMalformed path => "failed to parse prompt '" ++ path ++ "': <yaml>"
  | .variablesMalformed path => "invalid YAML variables in '" ++ path ++ "': <yaml>"
  | .jsonMalformed fault file => "invalid JSON variables: " ++ fault.message ++ inFile file
  | .notScalar name found file =>
    "variable '" ++ name ++ "' must be a string, number or boolean (got " ++
      (if found.isEmpty then "null" else found) ++ ")" ++ inFile file
  | .config fault file => fault.message ++ inFile file
  | .missingVariables names =>
    "missing required variables: " ++ Text.separated ", " names ++ "\n\nProvide them as:" ++
      Text.separated "" (names.map fun name => "\n  " ++ name ++ "=<value>")
  | .unsatisfied kind entries => kind.message ++ ": " ++ Text.separated ", " entries
  | .noProgram => "invocation has no program"
  | .notStarted program error =>
    "failed to execute '" ++ program ++ "': " ++ error.message ++
      "\nFix: ensure the command is installed and in PATH, or set \x60command\x60 in the prun config."

end Failure

/-- What a run can do without, but should not pass over in silence. -/
inductive Warning where
  | frontmatterIgnored (path : String)
  | argumentIgnored (argument : String)
  deriving DecidableEq, Repr

def Warning.message : Warning → String
  | .frontmatterIgnored path => "ignoring malformed frontmatter in '" ++ path ++ "': <yaml>"
  | .argumentIgnored argument => "ignoring argument '" ++ argument ++ "': expected key=value"

end PromptRunner
