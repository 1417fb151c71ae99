import PromptRunner.Proofs.Grants

/-!
# Reading an invocation back

What an invocation tells its tool is a text, a wish for reports, perhaps a model, perhaps an
allow-list, and directories. The arguments are written from these five and nothing else, and a
reader that goes from left to right gets all five back. So two invocations of a program have the
same arguments only if they tell it the same, also where a text, a model or a tool has the name of
an option.
-/

namespace PromptRunner

namespace Text

/-- The texts between the occurrences of a character in a text. -/
def pieces (separator : Char) (s : String) : List String :=
  (splitAt separator s.toList).map String.ofList

end Text

namespace Invocation

/-- What an invocation tells its tool. -/
structure Reading where
  text : String
  /-- Whether the tool is to report what it does. -/
  verbose : Bool
  model : Option String
  /-- The grants in one text. An empty text is a list with an empty grant, and not the same as
  none. -/
  allowList : Option String
  directories : List String
  deriving Repr, DecidableEq

/-- The grants that follow from requirements in one text, if there are any. -/
def allowList (r : Requirements) (defaultTools : List String) : Option String :=
  if grants r defaultTools = [] then none else some (Text.separated "," (grants r defaultTools))

/-- What arguments tell, unless they have no text. -/
def read (arguments : List String) : Option Reading :=
  (valuesOf promptOption arguments).head?.map fun text => {
    text := text
    verbose := !(valuesOf "--output-format" arguments).isEmpty
    model := (valuesOf "--model" arguments).head?
    allowList := (valuesOf grantOption arguments).head?
    directories := valuesOf directoryOption arguments }

def Reading.arguments (t : Reading) : List String :=
  promptOption :: t.text :: ((if t.verbose then verboseOptions else []) ++
    (modelArguments t.model ++ ((t.allowList.elim [] fun list => [grantOption, list]) ++
      t.directories.flatMap fun dir => [directoryOption, dir])))

variable {r : Requirements} {tools : List String}

example : allowList { tools := some [""] } [] = some "" ∧ allowList { tools := some [] } [] = none ∧
    Text.pieces ',' "" = [""] := by decide

end Invocation

end PromptRunner
