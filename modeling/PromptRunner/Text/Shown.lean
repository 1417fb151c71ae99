import PromptRunner.Text.Visible
/-!
# Shown texts

The form in which a text stands in a message about it: between double quotes, with escapes for what
could not be seen.
-/

namespace PromptRunner.Text

def shownChar (c : Char) : List Char :=
  match c with
  | '\x00' => ['\\', '0']
  | '\t' => ['\\', 't']
  | '\n' => ['\\', 'n']
  | '\r' => ['\\', 'r']
  | '\x22' => ['\\', '\x22']
  | '\\' => ['\\', '\\']
  | c => if isVisible c then [c] else '\\' :: 'u' :: '\x7b' :: (Nat.toDigits 16 c.toNat ++ ['\x7d'])

def shown (s : String) : String :=
  String.ofList ('\x22' :: (s.toList.flatMap shownChar ++ ['\x22']))

end PromptRunner.Text
