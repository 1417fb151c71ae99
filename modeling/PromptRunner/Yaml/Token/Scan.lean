import PromptRunner.Yaml.Token.Plain
import PromptRunner.Yaml.Token.Tag
/-!
# Reading tokens

The tokens of a placed text. Two things are only known later: a deeper column opens a block that a
lesser column closes, and a scalar or collection turns out to be a key when a colon follows it on
its line. The reader therefore keeps the margins of the open blocks and, for every open bracket, the
place at which a key may have started.
-/

namespace PromptRunner.Yaml

/-- A place at which a key may have started. -/
structure PendingKey where
  /-- The number of tokens before it. -/
  position : Nat
  mark : Mark
  /-- Nothing but a key may stand here. -/
  required : Bool
  deriving DecidableEq, Repr

/-- What is known between two tokens. -/
structure Scanner where
  /-- The tokens so far, newest first, and their number. -/
  tokens : List Token := []
  count : Nat := 0
  /-- The column behind the one at which the innermost open block started, or zero. -/
  margin : Nat := 0
  /-- The margins of the blocks around it. -/
  outer : List Nat := []
  /-- Whether a key may start here. -/
  keyAllowed : Bool := true
  /-- The pending key inside the innermost bracket. -/
  pending : Option PendingKey := none
  /-- The pending keys around each open bracket. -/
  outerPending : List (Option PendingKey) := []

namespace Scanner

/-- The longest way from the start of a key to its colon. -/
def keyLimit : Nat := 1024

def inFlow (s : Scanner) : Bool :=
  !s.outerPending.isEmpty

def push (s : Scanner) (t : Token) : Scanner :=
  { s with tokens := t :: s.tokens, count := s.count + 1 }

/-- Put a token before the one at a position. -/
def insertAt (s : Scanner) (position : Nat) (t : Token) : Scanner :=
  { s with tokens := s.tokens.insertIdx (s.count - position) t, count := s.count + 1 }

/-- Close every block whose margin is beyond `limit`. -/
def closeTo (limit : Nat) (tokens : List Token) (count margin : Nat) :
    List Nat → List Token × Nat × Nat × List Nat
  | [] => (tokens, count, margin, [])
  | m :: ms =>
    if limit < margin then closeTo limit (.blockEnd :: tokens) (count + 1) m ms
    else (tokens, count, margin, m :: ms)

/-- Close every block whose margin is beyond `limit`; between brackets, blocks stay open. -/
def unwind (s : Scanner) (limit : Nat) : Scanner :=
  if s.inFlow then s
  else
    let (tokens, count, margin, outer) := closeTo limit s.tokens s.count s.margin s.outer
    { s with tokens, count, margin, outer }

/-- Open a block at a column, with its first token before the one at a position, unless one is open
there already. -/
def openBlock (s : Scanner) (column position : Nat) (t : Token) : Scanner :=
  if s.inFlow || column < s.margin then s
  else { s.insertAt position t with margin := column + 1, outer := s.margin :: s.outer }

/-- Whether a pending key can no longer be one: it lies on an earlier line or too far back. -/
def isStale (here : Mark) (k : PendingKey) : Bool :=
  k.mark.line < here.line || k.mark.index + keyLimit < here.index

/-- Give up pending keys that can no longer be keys, or fail if one of them has to be. -/
def dropStale (here : Mark) : List (Option PendingKey) → Option (List (Option PendingKey))
  | [] => some []
  | none :: ks => (dropStale here ks).map (none :: ·)
  | some k :: ks =>
    if isStale here k then
      if k.required then none else (dropStale here ks).map (none :: ·)
    else (dropStale here ks).map (some k :: ·)

/-- Give up all pending keys that are stale. -/
def refresh (s : Scanner) (here : Mark) : Option Scanner :=
  match dropStale here (s.pending :: s.outerPending) with
  | some (k :: ks) => some { s with pending := k, outerPending := ks }
  | _ => none

/-- Give up the pending key, or fail if it has to be a key. -/
def dropPending (s : Scanner) : Option Scanner :=
  match s.pending with
  | some k => if k.required then none else some { s with pending := none }
  | none => some s

/-- Note that a key may start here. -/
def notePending (s : Scanner) (here : Mark) : Option Scanner :=
  if s.keyAllowed then
    s.dropPending.map fun s =>
      { s with pending := some ⟨s.count, here, !s.inFlow && s.margin == here.column + 1⟩ }
  else some s

/-- Note that a key may start here, and that none may start directly behind it. -/
def startContent (s : Scanner) (here : Mark) : Option Scanner :=
  (s.notePending here).map fun s => { s with keyAllowed := false }

def openBracket (s : Scanner) (here : Mark) (t : Token) : Option Scanner :=
  (s.notePending here).map fun s =>
    { s.push t with
      pending := none, outerPending := s.pending :: s.outerPending, keyAllowed := true }

def closeBracket (s : Scanner) (t : Token) : Option Scanner :=
  s.dropPending.map fun s =>
    let s := { s.push t with keyAllowed := false }
    match s.outerPending with
    | k :: ks => { s with pending := k, outerPending := ks }
    | [] => s

/-- A comma between brackets. -/
def flowEntry (s : Scanner) : Option Scanner :=
  s.dropPending.map fun s => { s.push .flowEntry with keyAllowed := true }

/-- A hyphen before an item. -/
def blockEntry (s : Scanner) (here : Mark) : Option Scanner :=
  if !s.inFlow && !s.keyAllowed then none
  else
    (s.openBlock here.column s.count .blockSequenceStart).dropPending.map fun s =>
      { s.push .blockEntry with keyAllowed := true }

def keySign (s : Scanner) (here : Mark) : Option Scanner :=
  if !s.inFlow && !s.keyAllowed then none
  else
    (s.openBlock here.column s.count .blockMappingStart).dropPending.map fun s =>
      { s.push .key with keyAllowed := !s.inFlow }

/-- A colon before a value. What the pending key started is a key now. -/
def valueSign (s : Scanner) (here : Mark) : Option Scanner :=
  match s.pending with
  | some k =>
    let s := (s.insertAt k.position .key).openBlock k.mark.column k.position .blockMappingStart
    some { s.push .value with pending := none, keyAllowed := false }
  | none =>
    if !s.inFlow && !s.keyAllowed then none
    else
      let s := s.openBlock here.column s.count .blockMappingStart
      some { s.push .value with keyAllowed := !s.inFlow }

/-- Everything that ends where a document starts or ends. -/
def leaveDocument (s : Scanner) : Option Scanner :=
  (s.unwind 0).dropPending.map fun s => { s with keyAllowed := false }

end Scanner

/-- Skip white space, comments and line breaks, and tell whether a key may start behind them. A line
break allows one, and where one is allowed a tab is no white space. -/
def skipSpace (inFlow : Bool) : (keyAllowed inComment : Bool) → List Mark → Bool × List Mark
  | keyAllowed, _, [] => (keyAllowed, [])
  | keyAllowed, inComment, m :: ms =>
    if isBreak m.char then skipSpace inFlow (keyAllowed || !inFlow) false ms
    else if m.char == endChar then (keyAllowed, m :: ms)
    else if inComment then skipSpace inFlow keyAllowed true ms
    else if m.char == byteOrderMark && m.column == 0 then skipSpace inFlow keyAllowed false ms
    else if m.char == ' ' || (m.char == '\t' && (inFlow || !keyAllowed)) then
      skipSpace inFlow keyAllowed false ms
    else if m.char == '#' then skipSpace inFlow keyAllowed true ms
    else (keyAllowed, m :: ms)

/-- The characters that no plain scalar starts with, unless another rule lets it. -/
def indicators : List Char :=
  "-?:,[]\x7b\x7d#&*!|>'\x22%@\x60".toList

def startsPlain (inFlow : Bool) (m : Mark) (ms : List Mark) : Bool :=
  let gapFollows := isGap (charAt ms 0)
  !(isGap m.char || indicators.contains m.char) || (m.char == '-' && !isBlank (charAt ms 0)) ||
    (!inFlow && (m.char == '?' || m.char == ':') && !gapFollows)

namespace Scanner

/-- Read the token that starts at a mark other than the end. -/
def step (s : Scanner) (m : Mark) (ms : List Mark) : Option (Scanner × List Mark) :=
  let here := m :: ms
  let gapFollows := isGap (charAt ms 0)
  let behind (rest : List Mark) (s : Scanner) : Scanner × List Mark := (s, rest)
  if m.column == 0 && m.char == '%' then
    s.leaveDocument.bind fun s => (Tag.directive? ms).map fun (t, rest) => (s.push t, rest)
  else if isDivider '-' here then s.leaveDocument.map fun s => (s.push .documentStart, here.drop 3)
  else if isDivider '.' here then s.leaveDocument.map fun s => (s.push .documentEnd, here.drop 3)
  else if m.char == '[' then (s.openBracket m .flowSequenceStart).map (behind ms)
  else if m.char == '\x7b' then (s.openBracket m .flowMappingStart).map (behind ms)
  else if m.char == ']' then (s.closeBracket .flowSequenceEnd).map (behind ms)
  else if m.char == '\x7d' then (s.closeBracket .flowMappingEnd).map (behind ms)
  else if m.char == ',' then s.flowEntry.map (behind ms)
  else if m.char == '-' && gapFollows then (s.blockEntry m).map (behind ms)
  else if m.char == '?' && (s.inFlow || gapFollows) then (s.keySign m).map (behind ms)
  else if m.char == ':' && (s.inFlow || gapFollows) then (s.valueSign m).map (behind ms)
  else if m.char == '*' then
    (s.startContent m).bind fun s =>
      (Tag.anchorName? ms).map fun (name, rest) => (s.push (.alias name), rest)
  else if m.char == '&' then
    (s.startContent m).bind fun s =>
      (Tag.anchorName? ms).map fun (name, rest) => (s.push (.anchor name), rest)
  else if m.char == '!' then
    (s.startContent m).bind fun s =>
      (Tag.read s.inFlow here).map fun (name, rest) => (s.push (.tag name), rest)
  else if (m.char == '|' || m.char == '>') && !s.inFlow then
    s.dropPending.bind fun s =>
      (Block.read (m.char == '|') s.margin ms).map fun (text, rest) =>
        ({ s.push (.scalar text .quoted) with keyAllowed := true }, rest)
  else if m.char == '\x27' || m.char == '\x22' then
    (s.startContent m).bind fun s =>
      (Quoted.read m.char ms).map fun r => (s.push (.scalar r.text .quoted), r.rest)
  else if startsPlain s.inFlow m ms then
    (s.startContent m).bind fun s =>
      (Plain.read s.inFlow s.margin here).map fun r =>
        ({ s.push (.scalar r.text .plain) with keyAllowed := r.newLine }, r.rest)
  else none

/-- Read tokens to the end of the text. Each of them takes a mark, so that `fuel` is enough if it is
more than the number of marks. -/
def run : (fuel : Nat) → Scanner → List Mark → Option (List Token)
  | 0, _, _ => none
  | fuel + 1, s, ms =>
    let (keyAllowed, ms) := skipSpace s.inFlow s.keyAllowed false ms
    match ms with
    | [] => none
    | m :: ms =>
      match ({ s with keyAllowed } : Scanner).refresh m with
      | none => none
      | some s =>
        let s := s.unwind (m.column + 1)
        if m.char == endChar then
          s.leaveDocument.map fun s => (s.push .streamEnd).tokens.reverse
        else
          match s.step m ms with
          | some (s, rest) => run fuel s rest
          | none => none

end Scanner

def tokens? (text : List Char) : Option (List Token) :=
  (marks? text).bind fun ms => Scanner.run (ms.length + 1) {} ms

end PromptRunner.Yaml
