import PromptRunner.Failure
import PromptRunner.FileSystem
import PromptRunner.Host
import PromptRunner.Json.Read
import PromptRunner.Text.Blank
import PromptRunner.Text.WordChar
import PromptRunner.Variables.Bindings
import PromptRunner.Yaml.Decode
import PromptRunner.Yaml.ValueText
/-!
# Sources of variables

Variables come from a file, from a JSON object and from arguments `name=value`; a later source, and
a later argument, counts more. In an argument, `@` before a path stands for the content of that
file. Arguments of another form are left out with a warning.
-/

namespace PromptRunner.Variables

/-- Where the variables of a run come from. -/
structure Sources where
  file : Option Path := none
  json : Option String := none
  arguments : List String := []
  deriving Repr, DecidableEq

/-- The variables of a run, with a warning for each argument that was left out. -/
structure Assembled where
  bindings : Bindings := .empty
  warnings : List Warning := []
  deriving Repr, DecidableEq

/-- The text of a file that is read for its variables. -/
def fileText (fs : FileSystem) (role : FileRole) (path : Path) : Except Failure String :=
  match fs.readText path with
  | .ok content => .ok content
  | .error .missing => .error (.fileMissing role (Path.shown path))
  | .error e => .error (.fileUnreadable role (Path.shown path) e)

def jsonText (file : Option String) (name : String) : Json.Value → Except Failure String
  | .text s => .ok s
  | .int n => .ok (toString n)
  | .float d => .ok (Json.numberLayout.text d)
  | .bool b => .ok (Text.boolText b)
  | v => .error (.notScalar name v.compact file)

/-- The pairs of a list of members, or the failure of the first that has none. -/
def pairsOf {α : Type} (pair : α → Except Failure (String × String)) :
    List α → Except Failure (List (String × String))
  | [] => .ok []
  | m :: ms =>
    match pair m with
    | .error f => .error f
    | .ok p =>
      match pairsOf pair ms with
      | .error f => .error f
      | .ok ps => .ok (p :: ps)

/-- The variables of a JSON object, which may stand in a file. -/
def ofJson (file : Option String) (text : String) : Except Failure (List (String × String)) :=
  match Json.object? text with
  | .error fault => .error (.jsonMalformed fault file)
  | .ok ms => pairsOf (fun m => (jsonText file m.1 m.2).map (m.1, ·)) ms

def keyText : Yaml.Value → String
  | .text s => s
  | v => v.plainText

def yamlText (name : String) : Yaml.Value → Except Failure String
  | .text s => .ok s
  | .int n => .ok (Yaml.Value.int n).plainText
  | .float d => .ok (Yaml.Value.float d).plainText
  | .bool b => .ok (Yaml.Value.bool b).plainText
  | v => .error (.notScalar name v.plainText none)

/-- The variables of a YAML mapping in a file. A blank file has none. -/
def ofYaml (path content : String) : Except Failure (List (String × String)) :=
  if Text.isBlank content then .ok []
  else
    match (Yaml.Document.ofText? content).bind Yaml.Document.entries? with
    | none => .error (.variablesMalformed path)
    | some es => pairsOf (fun e => (yamlText (keyText e.1) e.2).map (keyText e.1, ·)) es

inductive FileFormat where
  | json
  | yaml
  deriving DecidableEq, Repr

/-- The format that the name of a file shows. -/
def FileFormat.ofPath? (path : Path) : Option FileFormat :=
  if Path.hasEnding path ".json" then some .json
  else if Path.hasEnding path ".yaml" || Path.hasEnding path ".yml" then some .yaml
  else none

def ofFile (fs : FileSystem) (path : Path) : Except Failure (List (String × String)) :=
  match FileFormat.ofPath? path with
  | none => .error (.variablesFormat (Path.shown path))
  | some format =>
    match fileText fs .variableFile path with
    | .error f => .error f
    | .ok content =>
      match format with
      | .json => ofJson (some (Path.shown path)) content
      | .yaml => ofYaml (Path.shown path) content

/-- The name and the written value of an argument. -/
def assignment? (argument : String) : Option (String × List Char) :=
  let name := argument.toList.takeWhile Text.isWord
  match name, argument.toList.dropWhile Text.isWord with
  | _ :: _, '=' :: value => some (String.ofList name, value)
  | _, _ => none

/-- The value that is written in an argument. -/
def valueOf (fs : FileSystem) (host : Host) (name : String) : List Char → Except Failure String
  | '@' :: path => do fileText fs (.value name) (← host.expand (String.ofList path))
  | value => .ok (String.ofList value)

def addArgument (fs : FileSystem) (host : Host) (a : Assembled) (argument : String) :
    Except Failure Assembled :=
  match assignment? argument with
  | none => .ok { a with warnings := a.warnings ++ [.argumentIgnored argument] }
  | some (name, written) =>
    match valueOf fs host name written with
    | .ok value => .ok { a with bindings := a.bindings.insert name value }
    | .error f => .error f

/-- Take arguments into account from left to right. -/
def addArguments (fs : FileSystem) (host : Host) (a : Assembled) :
    List String → Except Failure Assembled
  | [] => .ok a
  | argument :: arguments =>
    match addArgument fs host a argument with
    | .ok a => addArguments fs host a arguments
    | .error f => .error f

namespace Sources

def filePairs (s : Sources) (fs : FileSystem) (host : Host) :
    Except Failure (List (String × String)) :=
  match s.file with
  | some file => do ofFile fs (← host.expand (Path.shown file))
  | none => .ok []

def jsonPairs (s : Sources) : Except Failure (List (String × String)) :=
  match s.json with
  | some json => ofJson none json
  | none => .ok []

def assemble (s : Sources) (fs : FileSystem) (host : Host) : Except Failure Assembled :=
  match s.filePairs fs host with
  | .error f => .error f
  | .ok fromFile =>
    match s.jsonPairs with
    | .error f => .error f
    | .ok fromJson =>
      addArguments fs host { bindings := (Bindings.ofList fromFile).insertAll fromJson } s.arguments

end Sources

end PromptRunner.Variables
