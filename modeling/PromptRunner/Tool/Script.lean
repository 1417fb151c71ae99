import PromptRunner.Shell.Split
import PromptRunner.Text.Lines
/-!
# Tool scripts

The scripts that stand in for a tool. A script may print words, print each of its arguments between
two texts, stop itself by a signal and exit with a code; everything else in it is passed over.
-/

namespace PromptRunner.Tool

/-- How a tool ends. -/
inductive Ending where
  | exited (code : Nat)
  | stopped
  deriving DecidableEq, Repr

/-- What a tool prints and how it ends. -/
structure Output where
  text : String
  ending : Ending
  deriving DecidableEq, Repr

/-- A line of a script. -/
inductive Instruction where
  /-- Print words with spaces between them. -/
  | print (words : List String)
  /-- Print each argument between two texts. -/
  | printEach (before after : List Char)
  | exit (code : Nat)
  | stop
  deriving DecidableEq, Repr

namespace Instruction

def cutAt (mention : List Char) : List Char → Option (List Char × List Char)
  | [] => none
  | c :: cs =>
    if mention.isPrefixOf (c :: cs) then some ([], (c :: cs).drop mention.length)
    else (cutAt mention cs).map fun (before, after) => (c :: before, after)

/-- A word without the semicolon at its end. -/
def dropSemicolon (word : String) : List Char :=
  match word.toList.reverse with
  | ';' :: cs => cs.reverse
  | cs => cs.reverse

def ofWords? : List String → Option Instruction
  | ["for", name, "in", "$@;", "do", "echo", shape, "done"] =>
    (cutAt ('$' :: name.toList) (dropSemicolon shape)).map fun (before, after) =>
      .printEach before after
  | "echo" :: words => some (.print words)
  | ["exit", code] => code.toNat?.map fun n => .exit (n % 256)
  | ["kill", "-9", "$$"] => some .stop
  | _ => none

def ofLine? (line : List Char) : Option Instruction :=
  (Shell.splitWords line).bind fun ws => ofWords? (ws.map String.ofList)

end Instruction

def instructions (script : String) : List Instruction :=
  (Text.lines script.toList).filterMap Instruction.ofLine?

/-- The characters of an escape in a printed text, and how many of the text they take; none for an
escape that ends the output. -/
def printedEscape? : Char → Option Char
  | 'a' => some '\x07'
  | 'b' => some '\x08'
  | 'f' => some '\x0c'
  | 'n' => some '\n'
  | 'r' => some '\r'
  | 't' => some '\t'
  | 'v' => some '\x0b'
  | '\\' => some '\\'
  | _ => none

/-- Print a text, in which a backslash opens an escape. The text is cut off at the escape of the
letter `c`; the answer tells whether it was. -/
def printed : List Char → List Char × Bool
  | [] => ([], false)
  | '\\' :: c :: cs =>
    if c = 'c' then ([], true)
    else
      match printedEscape? c with
      | some e => let (text, cut) := printed cs; (e :: text, cut)
      | none => let (text, cut) := printed cs; ('\\' :: c :: text, cut)
  | c :: cs => let (text, cut) := printed cs; (c :: text, cut)

def printLine (text : List Char) : List Char :=
  let (shown, cut) := printed text
  if cut then shown else shown ++ ['\n']

/-- Carry out instructions. A script that does not say otherwise exits with zero. -/
def carryOut (arguments : List String) : List Instruction → List Char × Ending
  | [] => ([], .exited 0)
  | .stop :: _ => ([], .stopped)
  | .exit code :: _ => ([], .exited code)
  | .print words :: is =>
    let (text, ending) := carryOut arguments is
    (printLine ([' '].intercalate (words.map String.toList)) ++ text, ending)
  | .printEach before after :: is =>
    let (text, ending) := carryOut arguments is
    (arguments.flatMap (fun a => printLine (before ++ a.toList ++ after)) ++ text, ending)

def runScript (script : String) (arguments : List String) : Output :=
  let (text, ending) := carryOut arguments (instructions script)
  ⟨String.ofList text, ending⟩

end PromptRunner.Tool
