import PromptRunner.Text.Blank
import PromptRunner.Yaml.BlockText
/-!
# Values as text

The text that a value contributes where text is wanted: nothing for null, a text as it is, and a
collection in its block form.
-/

namespace PromptRunner.Yaml.Value

/-- The text of a value. -/
def plainText : Value → String
  | .null => ""
  | .bool b => Text.boolText b
  | .int n => toString n
  | .float d => numberLayout.text d
  | .text s => s
  | v => Text.trimRight v.render

end PromptRunner.Yaml.Value
