import PromptRunner.Failure
import PromptRunner.FileSystem
import PromptRunner.Prompt.Body
import PromptRunner.Prompt.Metadata
import PromptRunner.Text.Lines
/-!
# Prompt documents

A prompt is written in one of two shapes: a YAML document with metadata and messages, or a text that
may open with metadata between two lines of three hyphens. The name of the file tells which.
Metadata before a text that cannot be read is left out with a warning; everything else that cannot
be read is a failure.
-/

namespace PromptRunner

/-- The shape of a prompt document. -/
inductive Format where
  | structured
  | text
  deriving DecidableEq, Repr

def structuredEndings : List String :=
  [".yaml", ".yml"]

def textEndings : List String :=
  [".md", ".txt"]

/-- The shape of the document in a file. -/
def Format.ofPath (path : Path) : Except Failure Format :=
  if structuredEndings.any (Path.hasEnding path) then .ok .structured
  else if textEndings.any (Path.hasEnding path) then .ok .text
  else .error (.promptFormat (Path.shown path))

/-- A prompt. -/
structure Prompt where
  metadata : Metadata
  body : Body
  warnings : List Warning := []
  deriving Repr

def Prompt.names (p : Prompt) : List String :=
  p.body.names

namespace Prompt

def delimiter : List Char := ['-', '-', '-']

def isLineEnding (c : Char) : Bool :=
  c == '\n' || c == '\r'

/-- Whether a line holds nothing but three hyphens. -/
def isDelimiter (line : List Char) : Bool :=
  Text.dropRight isLineEnding line == delimiter

/-- The text between the first two delimiter lines and the text behind them, if a delimiter line
opens the text and another one follows. -/
def splitFrontmatter (cs : List Char) : Option (List Char × List Char) :=
  match Text.lines cs with
  | [] => none
  | first :: rest =>
    if isDelimiter first then
      match rest.dropWhile fun l => !isDelimiter l with
      | [] => none
      | _ :: body => some ((rest.takeWhile fun l => !isDelimiter l).flatten, body.flatten)
    else none

/-- The metadata of a block before a text. A blank block has none. -/
def frontmatter? (block : List Char) : Option Metadata :=
  if Text.isBlank (String.ofList block) then some .empty
  else (Yaml.Document.ofText? (String.ofList block)).bind Metadata.ofDocument?

def ofTextDocument (path content : String) : Prompt :=
  match splitFrontmatter content.toList with
  | none => { metadata := .empty, body := .flat content }
  | some (block, rest) =>
    let body := Body.flat (String.ofList rest)
    match frontmatter? block with
    | some metadata => { metadata, body }
    | none => { metadata := .empty, body, warnings := [.frontmatterIgnored path] }

open Yaml

/-- Read a message. A content that is left out is an empty text. -/
def decodeMessage (d : Document) (t : Tree) : Decoder Message := do
  let fs ← Decode.fields d t
  let role ← Decode.field "role" fs none fun t => some <$> Decode.text d t
  let content ← Decode.field "content" fs (.text "") fun t =>
    Content.ofValue <$> Decode.value d Decode.standard (Decode.depthLimit - 3) t
  match role with
  | some role => pure { role, content }
  | none => failure

def decodeMessages (d : Document) (t : Tree) : Decoder (List Message) := do
  (← Decode.items d t).mapM (decodeMessage d)

/-- Read a structured document: its messages, and metadata among its other entries. -/
def decodeStructured (d : Document) (t : Tree) : Decoder (Metadata × List Message) := do
  let fs ← Decode.fields d t
  let messages ← Decode.field "messages" fs [] (decodeMessages d)
  let others ← (fs.filter (·.1 != "messages")).mapM fun f => do
    pure (f.1, ← Decode.value d Decode.untagged (Decode.depthLimit - 1) f.2)
  match Metadata.ofEntries? others with
  | some metadata => pure (metadata, messages)
  | none => failure

def ofStructuredDocument (path content : String) : Except Failure Prompt :=
  match (Document.ofText? content).bind fun d => d.decode (decodeStructured d) with
  | some (metadata, messages) => .ok { metadata, body := .messages messages }
  | none => .error (.promptMalformed path)

def parse (format : Format) (path content : String) : Except Failure Prompt :=
  match format with
  | .structured => ofStructuredDocument path content
  | .text => .ok (ofTextDocument path content)

def fileText (fs : FileSystem) (path : Path) : Except Failure String :=
  match fs.readText path with
  | .ok content => .ok content
  | .error .missing => .error (.fileMissing .prompt (Path.shown path))
  | .error .notText => .error (.promptNotText (Path.shown path))
  | .error e => .error (.fileUnreadable .prompt (Path.shown path) e)

def load (fs : FileSystem) (path : Path) : Except Failure Prompt := do
  let format ← Format.ofPath path
  let content ← fileText fs path
  parse format (Path.shown path) content

end Prompt

end PromptRunner
