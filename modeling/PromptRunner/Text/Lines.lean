/-!
# Lines

A text cut behind its line feeds; each line keeps its line feed, so that the lines together are the
text.
-/

namespace PromptRunner.Text

def lines : List Char → List (List Char)
  | [] => []
  | c :: cs =>
    if c = '\n' then [c] :: lines cs
    else
      match lines cs with
      | [] => [[c]]
      | l :: ls => (c :: l) :: ls

/-- No character is lost or added. -/
theorem flatten_lines (cs : List Char) : (lines cs).flatten = cs := by
  induction cs with
  | nil => rfl
  | cons c cs ih =>
    unfold lines
    split
    · simp [ih]
    · cases h : lines cs with
      | nil => simp [h] at ih; simp [← ih]
      | cons l ls => simp [h] at ih; simp [ih]

end PromptRunner.Text
