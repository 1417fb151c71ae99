import PromptRunner.Yaml.Token
/-!
# Trees

A document as it is written: scalars, sequences and mappings with their tags and anchors. An alias
refers by number to a node with an anchor, which may also be a node around it, so that a document
with aliases is a graph; the nodes with anchors are found by `Document.target?`.
-/

namespace PromptRunner.Yaml

/-- What may stand before a node: a tag with its handle explained, and the number of an anchor. -/
structure Properties where
  tag : Option (List Char) := none
  anchor : Option Nat := none
  deriving DecidableEq, Repr

/-- A node of a document. -/
inductive Tree where
  | alias (target : Nat)
  | scalar (properties : Properties) (text : List Char) (style : Style)
  | sequence (properties : Properties) (items : List Tree)
  | mapping (properties : Properties) (entries : List (Tree × Tree))
  deriving Repr

namespace Tree

/-- The scalar that stands where nothing is written. -/
def blank : Tree :=
  .scalar {} [] .plain

/-- A node under its anchor, if it has one. -/
def underAnchor (p : Properties) (t : Tree) : List (Nat × Tree) :=
  match p.anchor with
  | some n => [(n, t)]
  | none => []

mutual

/-- The nodes with anchors in the order in which they start. -/
def anchored : Tree → List (Nat × Tree)
  | .alias _ => []
  | .scalar p text style => underAnchor p (.scalar p text style)
  | .sequence p items => underAnchor p (.sequence p items) ++ anchoredItems items
  | .mapping p entries => underAnchor p (.mapping p entries) ++ anchoredEntries entries

def anchoredItems : List Tree → List (Nat × Tree)
  | [] => []
  | t :: ts => anchored t ++ anchoredItems ts

def anchoredEntries : List (Tree × Tree) → List (Nat × Tree)
  | [] => []
  | (k, v) :: es => anchored k ++ anchored v ++ anchoredEntries es

end

mutual

/-- The size of a node: a collection counts at both of its ends. -/
def size : Tree → Nat
  | .alias _ => 1
  | .scalar _ _ _ => 1
  | .sequence _ items => 2 + sizeItems items
  | .mapping _ entries => 2 + sizeEntries entries

def sizeItems : List Tree → Nat
  | [] => 0
  | t :: ts => size t + sizeItems ts

def sizeEntries : List (Tree × Tree) → Nat
  | [] => 0
  | (k, v) :: es => size k + size v + sizeEntries es

end

end Tree

/-- A text's only document. Its root is missing if the text holds nothing but comments. -/
structure Document where
  root : Option Tree
  /-- The nodes with anchors, the one that starts last first. -/
  anchors : List (Nat × Tree)
  /-- The size of the root, at least one. -/
  size : Nat

namespace Document

def ofRoot (root : Option Tree) : Document :=
  match root with
  | some t => ⟨some t, t.anchored.reverse, t.size⟩
  | none => ⟨none, [], 1⟩

/-- The node that an alias refers to. If several have its number it is the one that starts last. -/
def target? (d : Document) (number : Nat) : Option Tree :=
  d.anchors.lookup number

end Document

end PromptRunner.Yaml
