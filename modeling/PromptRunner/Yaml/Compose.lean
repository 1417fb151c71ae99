import PromptRunner.Yaml.Token.Scan
import PromptRunner.Yaml.Tree
/-!
# Composing documents

The document that a list of tokens describes. Where the grammar lets a node be left out, an empty
plain scalar stands for it. A text holds at most one document.
-/

namespace PromptRunner.Yaml

/-- The tokens to come, and the anchors that have a name so far, each name once. -/
structure Composer where
  tokens : List Token
  names : List (List Char × Nat) := []

namespace Composer

/-- The meanings of tag handles. -/
abbrev Handles := List (List Char × List Char)

def standardHandles : Handles :=
  [(['!'], ['!']), (['!', '!'], "tag:yaml.org,2002:".toList)]

def next (c : Composer) : Token :=
  match c.tokens with
  | t :: _ => t
  | [] => .streamEnd

def skip (c : Composer) : Composer :=
  { c with tokens := c.tokens.tail }

/-- Give the next number to an anchor: the count of different names so far. A name that is used
again refers to its newest anchor. -/
def defineAnchor (c : Composer) (name : List Char) : Nat × Composer :=
  let n := c.names.length
  (n, { c with names := (name, n) :: c.names.filter (·.1 != name) })

/-- A tag with its handle replaced by what it means. -/
def explain (handles : Handles) (t : TagName) : Option (List Char) :=
  if t.handle.isEmpty then some t.rest
  else (handles.lookup t.handle).map (· ++ t.rest)

/-- Read the tag and the anchor before a node, in either order. The anchor gets its number later. -/
def nodeProperties (handles : Handles) (c : Composer) :
    Option (Option (List Char) × Option (List Char) × Composer) :=
  match c.next with
  | .anchor name =>
    match c.skip.next with
    | .tag t => (explain handles t).map fun tag => (some tag, some name, c.skip.skip)
    | _ => some (none, some name, c.skip)
  | .tag t =>
    (explain handles t).map fun tag =>
      match c.skip.next with
      | .anchor name => (some tag, some name, c.skip.skip)
      | _ => (some tag, none, c.skip)
  | _ => some (none, none, c)

/-- Whether a token closes or divides the block around it, so that a node before it was left out. -/
def endsBlockItem : Token → Bool
  | .blockEntry | .blockEnd => true
  | _ => false

/-- The same inside a mapping. -/
def endsBlockPair : Token → Bool
  | .key | .value | .blockEnd => true
  | _ => false

def endsOpenItem (t : Token) : Bool :=
  endsBlockItem t || endsBlockPair t

/-- The same for the key of a pair between square brackets. -/
def endsFlowKey : Token → Bool
  | .value | .flowEntry | .flowSequenceEnd => true
  | _ => false

def endsFlowItem : Token → Bool
  | .flowEntry | .flowSequenceEnd => true
  | _ => false

/-- The same for a key between braces. -/
def endsFlowPairKey : Token → Bool
  | .value | .flowEntry | .flowMappingEnd => true
  | _ => false

/-- The same for a value between braces. -/
def endsFlowPair : Token → Bool
  | .flowEntry | .flowMappingEnd => true
  | _ => false

/-- Where a node stands: block collections are possible only outside of brackets, and a sequence
without indentation only as a part of a mapping. -/
inductive Position where
  | flow
  | item
  | pairPart
  deriving DecidableEq, Repr

/-- The tag that a scalar keeps: the tag `!` says no more than having none. -/
def scalarTag (tag : Option (List Char)) : Option (List Char) :=
  if tag = some ['!'] then none else tag

/-- Step over a comma, which has to stand before every element but the first. -/
def skipComma (first : Bool) (c : Composer) : Option Composer :=
  if first then some c
  else if c.next = .flowEntry then some c.skip
  else none

mutual

def node (handles : Handles) : Nat → Position → Composer → Option (Tree × Composer)
  | 0, _, _ => none
  | fuel + 1, position, c =>
    match c.next with
    | .alias name => (c.names.lookup name).map fun n => (.alias n, c.skip)
    | _ =>
      match c.nodeProperties handles with
      | none => none
      | some (tag, anchorName, c) =>
        let (anchor, named) :=
          match anchorName with
          | some name => let (n, c) := c.defineAnchor name; (some n, c)
          | none => (none, c)
        let p : Properties := ⟨tag, anchor⟩
        match c.next with
        | .scalar text style => some (.scalar { p with tag := scalarTag tag } text style, named.skip)
        | .flowSequenceStart =>
          (flowItems handles fuel true named.skip).map fun (ts, c) => (.sequence p ts, c)
        | .flowMappingStart =>
          (flowPairs handles fuel true named.skip).map fun (es, c) => (.mapping p es, c)
        | t =>
          if t = .blockEntry && position = .pairPart then
            (openItems handles fuel named).map fun (ts, c) => (.sequence p ts, c)
          else if t = .blockSequenceStart && position ≠ .flow then
            (blockItems handles fuel named.skip).map fun (ts, c) => (.sequence p ts, c)
          else if t = .blockMappingStart && position ≠ .flow then
            (blockPairs handles fuel named.skip).map fun (es, c) => (.mapping p es, c)
          else if tag.isSome || anchor.isSome then some (.scalar p [] .plain, named)
          else none

def blockItems (handles : Handles) : Nat → Composer → Option (List Tree × Composer)
  | 0, _ => none
  | fuel + 1, c =>
    match c.next with
    | .blockEnd => some ([], c.skip)
    | .blockEntry =>
      let item :=
        if endsBlockItem c.skip.next then some (.blank, c.skip)
        else node handles fuel .item c.skip
      item.bind fun (t, c) => (blockItems handles fuel c).map fun (ts, c) => (t :: ts, c)
    | _ => none

def openItems (handles : Handles) : Nat → Composer → Option (List Tree × Composer)
  | 0, _ => none
  | fuel + 1, c =>
    match c.next with
    | .blockEntry =>
      let item :=
        if endsOpenItem c.skip.next then some (.blank, c.skip)
        else node handles fuel .item c.skip
      item.bind fun (t, c) => (openItems handles fuel c).map fun (ts, c) => (t :: ts, c)
    | _ => some ([], c)

def blockPairs (handles : Handles) : Nat → Composer → Option (List (Tree × Tree) × Composer)
  | 0, _ => none
  | fuel + 1, c =>
    match c.next with
    | .blockEnd => some ([], c.skip)
    | .key =>
      let key :=
        if endsBlockPair c.skip.next then some (.blank, c.skip)
        else node handles fuel .pairPart c.skip
      key.bind fun (k, c) =>
        let value :=
          if c.next = .value then
            if endsBlockPair c.skip.next then some (.blank, c.skip)
            else node handles fuel .pairPart c.skip
          else some (.blank, c)
        value.bind fun (v, c) => (blockPairs handles fuel c).map fun (es, c) => ((k, v) :: es, c)
    | _ => none

/-- Read the items between square brackets. A pair among them is a mapping of its own; where its key
is left out, the sign behind the question mark is stepped over whatever it is. -/
def flowItems (handles : Handles) : Nat → Bool → Composer → Option (List Tree × Composer)
  | 0, _, _ => none
  | fuel + 1, first, c =>
    match c.next with
    | .flowSequenceEnd => some ([], c.skip)
    | _ =>
      (c.skipComma first).bind fun c =>
        match c.next with
        | .flowSequenceEnd => some ([], c.skip)
        | .key =>
          let key :=
            if endsFlowKey c.skip.next then some (.blank, c.skip.skip)
            else node handles fuel .flow c.skip
          key.bind fun (k, c) =>
            let value :=
              if c.next = .value then
                if endsFlowItem c.skip.next then some (.blank, c.skip)
                else node handles fuel .flow c.skip
              else some (.blank, c)
            value.bind fun (v, c) =>
              (flowItems handles fuel false c).map fun (ts, c) => (.mapping {} [(k, v)] :: ts, c)
        | _ =>
          (node handles fuel .flow c).bind fun (t, c) =>
            (flowItems handles fuel false c).map fun (ts, c) => (t :: ts, c)

def flowPairs (handles : Handles) : Nat → Bool → Composer → Option (List (Tree × Tree) × Composer)
  | 0, _, _ => none
  | fuel + 1, first, c =>
    match c.next with
    | .flowMappingEnd => some ([], c.skip)
    | _ =>
      (c.skipComma first).bind fun c =>
        match c.next with
        | .flowMappingEnd => some ([], c.skip)
        | .key =>
          let key :=
            if endsFlowPairKey c.skip.next then some (.blank, c.skip)
            else node handles fuel .flow c.skip
          key.bind fun (k, c) =>
            let value :=
              if c.next = .value then
                if endsFlowPair c.skip.next then some (.blank, c.skip)
                else node handles fuel .flow c.skip
              else some (.blank, c)
            value.bind fun (v, c) =>
              (flowPairs handles fuel false c).map fun (es, c) => ((k, v) :: es, c)
        | _ =>
          (node handles fuel .flow c).bind fun (k, c) =>
            (flowPairs handles fuel false c).map fun (es, c) => ((k, .blank) :: es, c)

end

/-- The directives of a document: whether a version was named, and the handles. -/
structure Directives where
  version : Bool := false
  handles : Handles := []

/-- Read directives. Only the versions 1.1 and 1.2 are known, and nothing may be said twice. -/
def directivesFrom (d : Directives) : List Token → Option (Directives × List Token)
  | .versionDirective major minor :: ts =>
    if d.version || major ≠ 1 || (minor ≠ 1 && minor ≠ 2) then none
    else directivesFrom { d with version := true } ts
  | .tagDirective handle meaning :: ts =>
    if (d.handles.lookup handle).isSome then none
    else directivesFrom { d with handles := d.handles ++ [(handle, meaning)] } ts
  | ts => some (d, ts)

/-- Whether a document that was opened by a divider has no content. -/
def endsDocument : Token → Bool
  | .versionDirective _ _ | .tagDirective _ _ | .documentStart | .documentEnd | .streamEnd => true
  | _ => false

/-- Whether nothing comes but ends of documents. -/
def isFinished : List Token → Bool
  | [.streamEnd] => true
  | .documentEnd :: ts => isFinished ts
  | _ => false

/-- The root of a document and the tokens behind it. -/
def root? (tokens : List Token) : Option (Tree × List Token) :=
  let fuel := 3 * tokens.length + 3
  match directivesFrom {} tokens with
  | none => none
  | some (d, .documentStart :: ts) =>
    if endsDocument (({ tokens := ts } : Composer).next) then some (.blank, ts)
    else
      (node (d.handles ++ standardHandles) fuel .item { tokens := ts }).map fun (t, c) => (t, c.tokens)
  | some (_, ts) =>
    if ts.length = tokens.length then
      (node standardHandles fuel .item { tokens }).map fun (t, c) => (t, c.tokens)
    else none

end Composer

/-- The document of a list of tokens. -/
def Document.ofTokens? (tokens : List Token) : Option Document :=
  if tokens = [.streamEnd] then some (.ofRoot none)
  else
    match Composer.root? tokens with
    | some (t, rest) => if Composer.isFinished rest then some (.ofRoot (some t)) else none
    | none => none

def Document.ofText? (text : String) : Option Document :=
  (tokens? text.toList).bind Document.ofTokens?

end PromptRunner.Yaml
