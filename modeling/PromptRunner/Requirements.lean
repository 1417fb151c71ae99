/-!
# Requirements

What a prompt asks of the machine before it is run, and which tools it wants to be granted. Entries
keep their order and may be repeated.
-/

namespace PromptRunner

/-- What a prompt requires. Tools that are not declared differ from an empty list of them. -/
structure Requirements where
  commands : List String := []
  tools : Option (List String) := none
  environment : List String := []
  directories : List String := []
  deriving Repr, DecidableEq

namespace Requirements

def empty : Requirements := {}

def declaresGrants (r : Requirements) : Bool :=
  !r.commands.isEmpty || r.tools.isSome

end Requirements

end PromptRunner
