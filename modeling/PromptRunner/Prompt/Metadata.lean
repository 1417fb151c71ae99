import PromptRunner.Requirements
import PromptRunner.Yaml.Decode
/-!
# Metadata

What a prompt says about itself. It is read in two ways: `ofDocument?` from a YAML document of its
own, where any scalar may stand for a text, and `ofEntries?` from the entries of a larger document,
whose values are fixed before it is known what they are for.
-/

namespace PromptRunner

/-- What a prompt says about itself. -/
structure Metadata where
  name : Option String := none
  description : Option String := none
  model : Option String := none
  requirements : Option Requirements := none
  deriving Repr, DecidableEq

namespace Requirements

open Yaml

/-- Read requirements from a mapping. Other fields are left aside. -/
def decode (d : Document) (t : Tree) : Decoder Requirements := do
  let fs ← Decode.fields d t
  let commands ← Decode.field "commands" fs [] (Decode.texts d)
  let tools ← Decode.field "tools" fs none fun t => do
    match ← Decode.optional d t with
    | some t => some <$> Decode.texts d t
    | none => pure none
  let environment ← Decode.field "environment" fs [] (Decode.texts d)
  let directories ← Decode.field "directories" fs [] (Decode.texts d)
  pure { commands, tools, environment, directories }

/-- The names of the fields in their order. -/
def fieldNames : List String :=
  ["commands", "tools", "environment", "directories"]

/-- The name of the field that a key stands for: a text stands for itself, and a number for the
field at its place, or for one that is left aside. -/
def fieldName? : Value → Option String
  | .text s => some s
  | .int n => if n < 0 then none else some (fieldNames.getD n.toNat "")
  | _ => none

/-- The texts of a list that holds nothing else. -/
def textsOf? : Value → Option (List String)
  | .list vs => vs.mapM fun
    | .text s => some s
    | _ => none
  | _ => none

/-- The tools of a field; null declares none. -/
def toolsOf? : Value → Option (Option (List String))
  | .null => some none
  | v => (textsOf? v).map some

/-- Read a field, or take what stands for a missing one. -/
def fieldOf? {α : Type} (name : String) (fields : List (String × Value)) (missing : α)
    (read : Value → Option α) : Option α :=
  match field? name fields with
  | some (some v) => read v
  | some none => some missing
  | none => none

def ofFields? (fields : List (String × Value)) : Option Requirements := do
  let commands ← fieldOf? "commands" fields [] textsOf?
  let tools ← fieldOf? "tools" fields none toolsOf?
  let environment ← fieldOf? "environment" fields [] textsOf?
  let directories ← fieldOf? "directories" fields [] textsOf?
  pure { commands, tools, environment, directories }

/-- Requirements from a value: a mapping, or a list of the fields in their order. -/
def ofValue? : Value → Option Requirements
  | .map es => (es.mapM fun e => (fieldName? e.1).map (·, e.2)).bind ofFields?
  | .list vs => if fieldNames.length < vs.length then none else ofFields? (fieldNames.zip vs)
  | _ => none

end Requirements

namespace Metadata

open Yaml

def empty : Metadata := {}

/-- Read metadata from a mapping. Other fields are left aside. -/
def decode (d : Document) (t : Tree) : Decoder Metadata := do
  let fs ← Decode.fields d t
  let name ← Decode.field "name" fs none (Decode.optionalText d)
  let description ← Decode.field "description" fs none (Decode.optionalText d)
  let model ← Decode.field "model" fs none (Decode.optionalText d)
  let requirements ← Decode.field "requirements" fs none fun t => do
    match ← Decode.optional d t with
    | some t => some <$> Requirements.decode d t
    | none => pure none
  pure { name, description, model, requirements }

/-- The metadata of a document of its own. -/
def ofDocument? (d : Document) : Option Metadata :=
  d.decode (decode d)

def textOf? : Value → Option (Option String)
  | .null => some none
  | .text s => some (some s)
  | _ => none

def requirementsOf? : Value → Option (Option Requirements)
  | .null => some none
  | v => (Requirements.ofValue? v).map some

/-- The metadata among the entries of a larger document. Other entries are left aside. -/
def ofEntries? (entries : List (String × Value)) : Option Metadata := do
  let name ← Requirements.fieldOf? "name" entries none textOf?
  let description ← Requirements.fieldOf? "description" entries none textOf?
  let model ← Requirements.fieldOf? "model" entries none textOf?
  let requirements ← Requirements.fieldOf? "requirements" entries none requirementsOf?
  pure { name, description, model, requirements }

end Metadata

end PromptRunner
