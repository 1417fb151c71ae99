import PromptRunner.Prompt.Document
/-!
# Details

The text that shows what a prompt says about itself and which variables it needs. What it does not
say takes no line.
-/

namespace PromptRunner.Prompt

/-- The width of the column of labels. -/
def labelWidth : Nat := 14

def labelled (label text : String) : String :=
  Text.padded labelWidth (label ++ ":") ++ text ++ "\n"

def labelledIfAny (label : String) (text : Option String) : String :=
  match text with
  | some text => labelled label text
  | none => ""

def requirementLine (label : String) (entries : List String) : String :=
  if entries.isEmpty then ""
  else
    "  " ++ Text.padded (labelWidth - 1) (label ++ ":") ++ Text.separated ", " entries ++ "\n"

def requirementLines (r : Requirements) : String :=
  "Requirements:\n" ++ requirementLine "commands" r.commands ++
    requirementLine "tools" (r.tools.getD []) ++ requirementLine "environment" r.environment ++
    requirementLine "directories" r.directories

def details (path : Path) (p : Prompt) : String :=
  labelled "Path" (Path.shown path) ++ labelledIfAny "Name" p.metadata.name ++
    labelledIfAny "Description" p.metadata.description ++ labelledIfAny "Model" p.metadata.model ++
    labelled "Variables" (if p.names.isEmpty then "(none)" else Text.separated ", " p.names) ++
    match p.metadata.requirements with
    | some r => requirementLines r
    | none => ""

end PromptRunner.Prompt
