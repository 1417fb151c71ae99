import PromptRunner.Text.Basic
import PromptRunner.Yaml.ScalarText
/-!
# Written values

The block form of a value: one line for each item and each entry, indented by two spaces for each
level. A sequence inside a mapping is not indented further than its key. Empty collections are
written with brackets. A key that is not short or not on one line stands behind a question mark.
-/

namespace PromptRunner.Yaml

/-- The characters of a tag that are written as they are. -/
def isTagChar (c : Char) : Bool :=
  isNameChar c || ";/?:@&=+$,.~*'()[]".toList.contains c

/-- A byte of a tag as an escape. -/
def tagEscape (b : UInt8) : List Char :=
  '%' :: ScalarText.capitalHex 2 b.toNat

/-- The rest of a tag, with escapes where they are needed. -/
def tagRest (cs : List Char) : List Char :=
  cs.flatMap fun c =>
    if isTagChar c then [c] else (String.singleton c).toUTF8.toList.flatMap tagEscape

/-- The written form of a tag. The tag that is nothing but its mark has to be written in full. -/
def tagText (name : String) : List Char :=
  let cs := name.toList
  if cs == ['!'] then "!<%21>".toList else '!' :: tagRest cs

namespace Value

/-- The longest key that stands before its colon, in bytes. -/
def simpleKeyLimit : Nat := 128

/-- The written form of a value that is no list, no mapping and no tagged value, or that is
empty. -/
def inlineText (indent : Nat) : Value → Option (List Char)
  | .null => some "null".toList
  | .bool b => some (Text.boolText b).toList
  | .int n => some (toString n).toList
  | .float d => some (numberLayout.text d).toList
  | .text s => some (ScalarText.render indent s.toList)
  | .list [] => some ['[', ']']
  | .map [] => some ['\x7b', '\x7d']
  | .list _ => none
  | .map _ => none
  | .tagged _ _ => none

/-- The length of a key in bytes, or none if it does not stand on one line. -/
def keyLength? : Value → Option Nat
  | .text s => if s.toList.any ScalarText.isRawBreak then none else some (Text.byteCount s.toList)
  | .list [] => some 0
  | .map [] => some 0
  | .tagged name v => (keyLength? v).map (1 + Text.byteCount name.toList + ·)
  | v => (inlineText 0 v).map Text.byteCount

/-- Whether a key stands before its colon without a question mark. -/
def isSimpleKey (v : Value) : Bool :=
  match keyLength? v with
  | some n => n ≤ simpleKeyLimit
  | none => false

/-- Where a value is written: the indentation of the collection around it, if there is one, whether
that is a mapping, and whether a collection may start on the line of the indicator before it. -/
structure Position where
  indent : Option Nat
  inMapping : Bool
  compact : Bool

namespace Position

def root : Position := ⟨none, false, true⟩

def item (indent : Nat) : Position := ⟨some indent, false, true⟩

/-- Behind the colon of a simple key. -/
def afterKey (indent : Nat) : Position := ⟨some indent, true, false⟩

/-- Behind a question mark, or behind the colon on a line of its own. -/
def pairPart (indent : Nat) : Position := ⟨some indent, true, true⟩

/-- Behind a tag. -/
def afterTag (p : Position) : Position := { p with compact := false }

/-- The indentation of the lines of a scalar. -/
def scalarIndent (p : Position) : Nat :=
  match p.indent with
  | some n => n + 2
  | none => 2

def mapIndent (p : Position) : Nat :=
  match p.indent with
  | some n => n + 2
  | none => 0

def listIndent (p : Position) : Nat :=
  match p.indent with
  | some n => if p.inMapping && !p.compact then n else n + 2
  | none => 0

end Position

def newLine (indent : Nat) : List Char :=
  '\n' :: List.replicate indent ' '

/-- The start of the line behind a text, which may end with a line break itself. -/
def nextLine (indent : Nat) (before : List Char) : List Char :=
  if before.getLast?.any ScalarText.isRawBreak then List.replicate indent ' ' else newLine indent

/-- The start of the first line of a collection, behind an indicator or on a line of its own. -/
def firstLine (p : Position) (indent : Nat) : List Char :=
  if p.compact then [' '] else newLine indent

def entryText (n : Nat) (key : Value) (keyText valueText : Position → List Char) : List Char :=
  if isSimpleKey key then (keyText (.afterKey n)).tail ++ ':' :: valueText (.afterKey n)
  else
    '?' :: keyText (.pairPart n) ++ nextLine n (keyText (.pairPart n)) ++
      ':' :: valueText (.pairPart n)

mutual

/-- The written form of a value, from behind the indicator before it. -/
def blockText (p : Position) : Value → List Char
  | .tagged name v => ' ' :: (tagText name ++ blockText p.afterTag v)
  | .list vs =>
    if vs.isEmpty then " []".toList else itemLines (firstLine p p.listIndent) p.listIndent vs
  | .map es =>
    if es.isEmpty then " \x7b\x7d".toList
    else entryLines (firstLine p p.mapIndent) p.mapIndent es
  | v => ' ' :: (inlineText p.scalarIndent v).getD []

/-- The lines of the items of a sequence, the first of which starts with `start`. -/
def itemLines (start : List Char) (n : Nat) : List Value → List Char
  | [] => []
  | v :: vs =>
    let item := blockText (.item n) v
    start ++ '-' :: item ++ itemLines (nextLine n item) n vs

def entryLines (start : List Char) (n : Nat) : List (Value × Value) → List Char
  | [] => []
  | (k, v) :: es =>
    let entry := entryText n k (fun p => blockText p k) (fun p => blockText p v)
    start ++ entry ++ entryLines (nextLine n entry) n es

end

/-- The written form of a value as a document of its own. -/
def render (v : Value) : String :=
  String.ofList (blockText .root v).tail

end Value

end PromptRunner.Yaml
