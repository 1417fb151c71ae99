import PromptRunner.Json.Number
import PromptRunner.Json.Quoted
import PromptRunner.Text.Shown
/-!
# Reading JSON objects

An object from a text. Arrays and objects may be nested 127 deep, the object itself included.
-/

namespace PromptRunner.Json

namespace Read

def depthLimit : Nat := 128

def wordValue (v : Value) (c : Cursor) (rest : List Char) : Reading Value :=
  match c.skip.word rest with
  | .ok c => .ok (v, c)
  | .error e => .error e

def numberValue : Number → Value
  | .int n => .int n
  | .float d => .float d

/-- Read a value that is neither an array nor an object. -/
def simple (c : Cursor) (x : Char) : Reading Value :=
  if x == 'n' then wordValue .null c "ull".toList
  else if x == 't' then wordValue (.bool true) c "rue".toList
  else if x == 'f' then wordValue (.bool false) c "alse".toList
  else if x == '-' then (Number.read true c.skip).map fun (n, c) => (numberValue n, c)
  else if x.isDigit then (Number.read false c).map fun (n, c) => (numberValue n, c)
  else if x == '\x22' then (Quoted.read c.skip).map fun (s, c) => (.text s, c)
  else c.faultAhead .expectedValue

def beforeItem (first : Bool) (c : Cursor) : Except Fault (Option Cursor) :=
  let c := c.skipSpace
  match c.peek? with
  | none => c.fault .endInArray
  | some x =>
    if x == ']' then .ok none
    else if first then .ok (some c)
    else if x == ',' then
      let c := c.skip.skipSpace
      match c.peek? with
      | none => c.fault .endInValue
      | some y => if y == ']' then c.faultAhead .trailingComma else .ok (some c)
    else c.faultAhead .expectedCommaOrBracket

def expectName (c : Cursor) : Except Fault (Option Cursor) :=
  match c.peek? with
  | none => c.fault .endInValue
  | some x =>
    if x == '\x22' then .ok (some c)
    else if x == '\x7d' then c.faultAhead .trailingComma
    else c.faultAhead .keyMustBeText

/-- Step over what stands before a member of an object; none at its end. -/
def beforeMember (first : Bool) (c : Cursor) : Except Fault (Option Cursor) :=
  let c := c.skipSpace
  match c.peek? with
  | none => c.fault .endInObject
  | some x =>
    if x == '\x7d' then .ok none
    else if first then expectName c
    else if x == ',' then expectName c.skip.skipSpace
    else c.faultAhead .expectedCommaOrBrace

def memberName (c : Cursor) : Reading String :=
  match Quoted.read c.skip with
  | .error e => .error e
  | .ok (name, c) =>
    let c := c.skipSpace
    match c.peek? with
    | none => c.fault .endInObject
    | some x => if x == ':' then .ok (name, c.skip) else c.faultAhead .expectedColon

mutual

/-- Read a value below `depth` open brackets. -/
def value : (fuel depth : Nat) → Cursor → Reading Value
  | 0, _, c => c.fault .tooDeep
  | fuel + 1, depth, c =>
    let c := c.skipSpace
    match c.peek? with
    | none => c.fault .endInValue
    | some x =>
      if x == '[' || x == '\x7b' then
        if depthLimit ≤ depth + 1 then c.faultAhead .tooDeep
        else if x == '[' then
          (items fuel (depth + 1) true [] c.skip).map fun (vs, c) => (.array vs, c)
        else
          (members fuel (depth + 1) true [] c.skip).map fun (ms, c) => (.object (countedMembers ms), c)
      else simple c x

def items : (fuel depth : Nat) → Bool → List Value → Cursor → Reading (List Value)
  | 0, _, _, _, c => c.fault .tooDeep
  | fuel + 1, depth, first, vs, c =>
    match beforeItem first c with
    | .error e => .error e
    | .ok none => .ok (vs.reverse, c.skipSpace.skip)
    | .ok (some c) =>
      match value fuel depth c with
      | .error e => .error e
      | .ok (v, c) => items fuel depth false (v :: vs) c

/-- Read the members of an object as they are written, with the ones so far newest first. -/
def members : (fuel depth : Nat) → Bool → List (String × Value) → Cursor →
    Reading (List (String × Value))
  | 0, _, _, _, c => c.fault .tooDeep
  | fuel + 1, depth, first, ms, c =>
    match beforeMember first c with
    | .error e => .error e
    | .ok none => .ok (ms.reverse, c.skipSpace.skip)
    | .ok (some c) =>
      match memberName c with
      | .error e => .error e
      | .ok (name, c) =>
        match value fuel depth c with
        | .error e => .error e
        | .ok (v, c) => members fuel depth false ((name, v) :: ms) c

end

/-- What a value is called where an object is wanted. -/
def called : Value → String
  | .null => "null"
  | .bool b => "boolean \x60" ++ Text.boolText b ++ "\x60"
  | .int n => "integer \x60" ++ toString n ++ "\x60"
  | .float d => "floating point \x60" ++ numberLayout.text d ++ "\x60"
  | .text s => "string " ++ Text.shown s
  | .array _ => "sequence"
  | .object _ => "map"

/-- The fault of a text that starts with something other than an object. -/
def otherThanObject (c : Cursor) (x : Char) : Fault :=
  if x == '[' then ⟨.notAnObject (called (.array [])), c.place⟩
  else
    match simple c x with
    | .ok (v, after) => ⟨.notAnObject (called v), after.place⟩
    | .error e => e

end Read

/-- The members that the object of a text is written with. Each step of reading takes a character or
ends an array or object, so that twice the length of the text bounds their number. -/
def written? (text : String) : Except Fault (List (String × Value)) :=
  let start : Cursor := ⟨text.toList, ⟨1, 0⟩⟩
  let c := start.skipSpace
  match c.peek? with
  | none => c.fault .endInValue
  | some x =>
    if x == '\x7b' then
      match Read.members (2 * text.length + 2) 1 true [] c.skip with
      | .error e => .error e
      | .ok (ms, c) =>
        let c := c.skipSpace
        match c.peek? with
        | none => .ok ms
        | some _ => c.faultAhead .trailingCharacters
    else .error (Read.otherThanObject c x)

/-- The members of the object that a text holds. -/
def object? (text : String) : Except Fault (List (String × Value)) :=
  (written? text).map countedMembers

end PromptRunner.Json
