import PromptRunner.Yaml.Compose
import PromptRunner.Yaml.Resolve
/-!
# Decoding documents

Reading a document as a value or as the fields of a record. Collections may be nested 128 deep, and
aliases may be followed a hundred times for each node of the document; what is not read is not
checked.
-/

namespace PromptRunner.Yaml

/-- Reading that may fail and that counts down the aliases that may still be followed. -/
abbrev Decoder := StateT Nat Option

namespace Decode

def depthLimit : Nat := 128

/-- How often aliases may be followed for each node of a document. -/
def aliasFactor : Nat := 100

def nullTag : List Char := "tag:yaml.org,2002:null".toList

def boolTag : List Char := "tag:yaml.org,2002:bool".toList

def intTag : List Char := "tag:yaml.org,2002:int".toList

/-- The tag of numbers with a point. -/
def floatTag : List Char := "tag:yaml.org,2002:float".toList

/-- A tag without the exclamation mark before it, unless it is nothing but that. -/
def dropMark : List Char → List Char
  | '!' :: c :: cs => c :: cs
  | cs => cs

/-- The name of a tag that a document has chosen for itself. -/
def ownTag? (tag : List Char) : Option String :=
  if tag.head? == some '!' then some (String.ofList (dropMark (dropMark tag))) else none

def follow (d : Document) : Tree → Decoder Tree
  | .alias n => fun left =>
    match left, d.target? n with
    | left + 1, some t => some (t, left)
    | _, _ => none
  | t => pure t

def plainValue (cs : List Char) : Option Value :=
  match resolve cs with
  | .null => some .null
  | .bool b => some (.bool b)
  | .int n => some (.int n)
  | .wide => none
  | .float x => some (.float x)
  | .text => some (.text (String.ofList cs))

/-- The value of a scalar whose tag does not count. -/
def untaggedValue (cs : List Char) (style : Style) : Option Value :=
  match style with
  | .plain => plainValue cs
  | .quoted => some (.text (String.ofList cs))

/-- The value of a scalar under a tag that is not its document's own: a tag of the standard forces
its kind of value, and any other makes a text. -/
def forcedValue (tag cs : List Char) : Option Value :=
  if tag = boolTag then (Resolve.bool? cs).map .bool
  else if tag = intTag then (Resolve.int? cs).map .int
  else if tag = floatTag then (Resolve.float? cs).map .float
  else if tag = nullTag then if Resolve.isNull cs then some .null else none
  else some (.text (String.ofList cs))

/-- What a value may contain. -/
structure Strictness where
  /-- Whether tags of a document's own are kept; otherwise they are refused. -/
  ownTags : Bool
  /-- Whether a mapping may have a key twice. -/
  repeatedKeys : Bool

/-- Values with tags and without repeated keys. -/
def standard : Strictness := ⟨true, false⟩

/-- Values without tags, in which keys may be repeated. -/
def untagged : Strictness := ⟨false, true⟩

/-- Put a node's own tag around its value. -/
def wrap (strictness : Strictness) (p : Properties) (v : Value) : Decoder Value :=
  match p.tag.bind ownTag? with
  | some name => if strictness.ownTags then pure (.tagged name v) else failure
  | none => pure v

def scalar (strictness : Strictness) (p : Properties) (cs : List Char) (style : Style) :
    Decoder Value :=
  match p.tag with
  | none => StateT.lift (untaggedValue cs style)
  | some tag =>
    if (ownTag? tag).isSome then do
      wrap strictness p (← StateT.lift (untaggedValue cs style))
    else StateT.lift (forcedValue tag cs)

/-- Put an entry behind others, which are in reverse. -/
def addEntry (strictness : Strictness) (entries : List (Value × Value)) (key : Value)
    (value : Decoder Value) : Decoder (List (Value × Value)) := do
  if !strictness.repeatedKeys && Value.hasKey entries key then failure
  let v ← value
  pure ((key, v) :: entries)

/-- The value of a node, with collections nested at most `depth` deep. -/
def value (d : Document) (strictness : Strictness) (depth : Nat) (t : Tree) : Decoder Value := do
  match ← follow d t with
  | .alias _ => failure
  | .scalar p cs style => scalar strictness p cs style
  | .sequence p items =>
    match depth with
    | 0 => failure
    | depth + 1 =>
      let vs ← items.mapM (value d strictness depth)
      wrap strictness p (.list vs)
  | .mapping p entries =>
    match depth with
    | 0 => failure
    | depth + 1 =>
      let es ← entries.foldlM
        (fun es e => do
          let k ← value d strictness depth e.1
          addEntry strictness es k (value d strictness depth e.2)) []
      wrap strictness p (.map es.reverse)
termination_by structural depth

/-- The entries of a mapping, with collections nested at most `depth` deep below it. -/
def entries (d : Document) (strictness : Strictness) (depth : Nat) (es : List (Tree × Tree)) :
    Decoder (List (Value × Value)) := do
  let es ← es.foldlM
    (fun es e => do
      let k ← value d strictness depth e.1
      addEntry strictness es k (value d strictness depth e.2)) []
  pure es.reverse

def isOmitted : Tree → Bool
  | .scalar _ cs style => cs.isEmpty && style == .plain
  | _ => false

/-- The text of a scalar of any kind, as it is written. -/
def text (d : Document) (t : Tree) : Decoder String := do
  match ← follow d t with
  | .scalar _ cs _ => pure (String.ofList cs)
  | _ => failure

/-- A node, or none if nothing is written or the scalar stands for nothing. -/
def optional (d : Document) (t : Tree) : Decoder (Option Tree) := do
  match ← follow d t with
  | .scalar p cs .plain =>
    match p.tag with
    | none => pure (if cs.isEmpty || Resolve.isNull cs then none else some (.scalar p cs .plain))
    | some tag =>
      if tag = nullTag then if Resolve.isNull cs then pure none else failure
      else pure (some (.scalar p cs .plain))
  | t => pure (some t)

/-- The text of a scalar, or none if it stands for nothing. -/
def optionalText (d : Document) (t : Tree) : Decoder (Option String) := do
  match ← optional d t with
  | some t => some <$> text d t
  | none => pure none

/-- The items of a sequence; a sequence that is left out has none. -/
def items (d : Document) (t : Tree) : Decoder (List Tree) := do
  match ← follow d t with
  | .sequence _ ts => pure ts
  | t => if isOmitted t then pure [] else failure

def pairs (d : Document) (t : Tree) : Decoder (List (Tree × Tree)) := do
  match ← follow d t with
  | .mapping _ es => pure es
  | t => if isOmitted t then pure [] else failure

def texts (d : Document) (t : Tree) : Decoder (List String) := do
  (← items d t).mapM (text d)

/-- The pairs of a mapping with their keys as texts. -/
def fields (d : Document) (t : Tree) : Decoder (List (String × Tree)) := do
  (← pairs d t).mapM fun e => do pure (← text d e.1, e.2)

end Decode

/-- The value of the field with a name, or none if there is none. No name may stand twice. -/
def field? {α : Type} (name : String) (fields : List (String × α)) : Option (Option α) :=
  match fields.filter (·.1 == name) with
  | [] => some none
  | [f] => some (some f.2)
  | _ => none

namespace Decode

/-- Read the field with a name, or take what stands for a missing one. -/
def field {α : Type} (name : String) (fields : List (String × Tree)) (missing : α)
    (read : Tree → Decoder α) : Decoder α :=
  match field? name fields with
  | some (some t) => read t
  | some none => pure missing
  | none => failure

end Decode

namespace Document

/-- The root of a document, or the node left out if there is none. -/
def rootOrBlank (d : Document) : Tree :=
  d.root.getD .blank

def decode {α : Type} (d : Document) (read : Tree → Decoder α) : Option α :=
  (read d.rootOrBlank (Decode.aliasFactor * d.size)).map Prod.fst

def value? (d : Document) : Option Value :=
  d.decode (Decode.value d Decode.standard Decode.depthLimit)

/-- The entries of a document that is a mapping. -/
def entries? (d : Document) : Option (List (Value × Value)) :=
  d.decode fun t => do
    Decode.entries d Decode.standard (Decode.depthLimit - 1) (← Decode.pairs d t)

end Document

def Value.ofText? (text : String) : Option Value :=
  (Document.ofText? text).bind Document.value?

end PromptRunner.Yaml
