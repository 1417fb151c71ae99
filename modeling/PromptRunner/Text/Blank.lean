/-!
# White space

The white space of Unicode, with the trimming that is built on it: a text is blank when nothing
remains after trimming.
-/

namespace PromptRunner.Text

/-- White space: the ASCII controls from tab to carriage return, the spaces, the next-line control
and the line and paragraph separators. -/
def isBlankChar (c : Char) : Bool :=
  let n := c.toNat
  (0x09 ≤ n && n ≤ 0x0d) || n == 0x20 || n == 0x85 || n == 0xa0 || n == 0x1680 ||
    (0x2000 ≤ n && n ≤ 0x200a) || n == 0x2028 || n == 0x2029 || n == 0x202f || n == 0x205f ||
    n == 0x3000

/-- A text with no character other than white space. -/
def isBlank (s : String) : Bool :=
  s.toList.all isBlankChar

/-- A text without its trailing characters that satisfy `p`. -/
def dropRight (p : Char → Bool) (cs : List Char) : List Char :=
  (cs.reverse.dropWhile p).reverse

/-- A text without its trailing white space. -/
def trimRight (s : String) : String :=
  String.ofList (dropRight isBlankChar s.toList)

theorem isBlankChar_of_isWhitespace {c : Char} (h : c.isWhitespace = true) :
    isBlankChar c = true := by
  simp only [Char.isWhitespace, Bool.or_eq_true, decide_eq_true_eq] at h
  rcases h with ((rfl | rfl) | rfl) | rfl <;> decide

end PromptRunner.Text
