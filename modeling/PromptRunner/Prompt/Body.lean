import PromptRunner.Prompt.Content
/-!
# Bodies

The part of a prompt that is handed to the tool: a text, or a list of messages. The text of messages
has a blank line between each two of them.
-/

namespace PromptRunner

structure Message where
  role : String
  content : Content
  deriving Repr

def Message.fill (lookup : String → Option String) (m : Message) : Message :=
  { m with content := m.content.fill lookup }

/-- The body of a prompt. -/
inductive Body where
  | flat (text : String)
  | messages (list : List Message)
  deriving Repr

namespace Body

def tokens : Body → List String
  | .flat text => Template.tokens text
  | .messages ms => ms.flatMap fun m => m.content.tokens

/-- The distinct names that a body refers to, in increasing order. -/
def names (b : Body) : List String :=
  Text.nameSet b.tokens

def fill (lookup : String → Option String) : Body → Body
  | .flat text => .flat (Template.fill lookup text)
  | .messages ms => .messages (ms.map (Message.fill lookup))

def chars : Body → List Char
  | .flat text => text.toList
  | .messages ms => ['\n', '\n'].intercalate (ms.map fun m => m.content.chars)

def toText (b : Body) : String :=
  String.ofList b.chars

end Body

end PromptRunner
