/-!
# Reading a command line

A command line is read into words by the quoting rules of a shell: single quotes keep everything,
double quotes keep everything but a backslash before `$`, a backquote, a double quote, a backslash
or a line break, and `#` at the start of a word opens a comment that ends with the line. The reader
fails only when a quote is not closed.
-/

namespace PromptRunner.Shell

/-- Where the reader stands. -/
inductive SplitState where
  | between
  | betweenEscape
  | word
  | wordEscape
  | single
  | double
  | doubleEscape
  | comment
  deriving DecidableEq, Repr

def isSeparator (c : Char) : Bool :=
  c == '\t' || c == ' ' || c == '\n'

/-- Read on from a state, with the characters of the current word in reverse. The result is none if
a quote is left open. -/
def splitFrom : SplitState → List Char → List Char → Option (List (List Char))
  | .between, _, [] => some []
  | .between, _, c :: cs =>
    if c = '\x27' then splitFrom .single [] cs
    else if c = '\x22' then splitFrom .double [] cs
    else if c = '\\' then splitFrom .betweenEscape [] cs
    else if isSeparator c then splitFrom .between [] cs
    else if c = '#' then splitFrom .comment [] cs
    else splitFrom .word [c] cs
  | .betweenEscape, _, [] => some [['\\']]
  | .betweenEscape, _, c :: cs =>
    if c = '\n' then splitFrom .between [] cs else splitFrom .word [c] cs
  | .word, w, [] => some [w.reverse]
  | .word, w, c :: cs =>
    if c = '\x27' then splitFrom .single w cs
    else if c = '\x22' then splitFrom .double w cs
    else if c = '\\' then splitFrom .wordEscape w cs
    else if isSeparator c then (splitFrom .between [] cs).map (w.reverse :: ·)
    else splitFrom .word (c :: w) cs
  | .wordEscape, w, [] => some [('\\' :: w).reverse]
  | .wordEscape, w, c :: cs =>
    if c = '\n' then splitFrom .word w cs else splitFrom .word (c :: w) cs
  | .single, _, [] => none
  | .single, w, c :: cs =>
    if c = '\x27' then splitFrom .word w cs else splitFrom .single (c :: w) cs
  | .double, _, [] => none
  | .double, w, c :: cs =>
    if c = '\x22' then splitFrom .word w cs
    else if c = '\\' then splitFrom .doubleEscape w cs
    else splitFrom .double (c :: w) cs
  | .doubleEscape, _, [] => none
  | .doubleEscape, w, c :: cs =>
    if c = '\n' then splitFrom .double w cs
    else if c = '$' || c = '\x60' || c = '\x22' || c = '\\' then splitFrom .double (c :: w) cs
    else splitFrom .double (c :: '\\' :: w) cs
  | .comment, _, [] => some []
  | .comment, _, c :: cs =>
    if c = '\n' then splitFrom .between [] cs else splitFrom .comment [] cs

def splitWords (line : List Char) : Option (List (List Char)) :=
  splitFrom .between [] line

/-- The words of a command line, or none if a quote is left open. -/
def split? (line : String) : Option (List String) :=
  (splitWords line.toList).map fun ws => ws.map String.ofList

end PromptRunner.Shell
