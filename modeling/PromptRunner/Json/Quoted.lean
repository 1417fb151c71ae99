import PromptRunner.Json.Cursor
import PromptRunner.Text.Basic
import PromptRunner.Text.Digits
/-!
# Reading texts

A text stands between quotes. An escape of four hexadecimal digits gives a unit of UTF-16, and two
of them make a character that does not fit into one.
-/

namespace PromptRunner.Json.Quoted

/-- The number that four hexadecimal digits stand for. -/
def unit? (digits : List Char) : Option Nat :=
  if digits.length = 4 then Text.hexNumber? digits else none

/-- The escapes of one letter. -/
def letter? : Char → Option Char
  | '\x22' => some '\x22'
  | '\\' => some '\\'
  | '/' => some '/'
  | 'b' => some '\x08'
  | 'f' => some '\x0c'
  | 'n' => some '\n'
  | 'r' => some '\r'
  | 't' => some '\t'
  | _ => none

def readUnit (c : Cursor) : Reading Nat :=
  match unit? (c.rest.take 4) with
  | some n => .ok (n, c.skip.skip.skip.skip)
  | none =>
    if Text.byteCount (c.rest.take 4) < 4 then
      .error ⟨.endInText, c.place.ahead (Text.byteCount c.rest) c.rest⟩
    else .error ⟨.invalidEscape, c.place.ahead 4 c.rest⟩

def isLeading (n : Nat) : Bool :=
  0xd800 ≤ n && n ≤ 0xdbff

def isTrailing (n : Nat) : Bool :=
  0xdc00 ≤ n && n ≤ 0xdfff

/-- The character of a pair. -/
def pairChar (leading trailing : Nat) : Char :=
  Char.ofNat (0x10000 + 0x400 * (leading - 0xd800) + (trailing - 0xdc00))

/-- Step over a character that has to follow the first unit of a pair. -/
def expectInPair (c : Cursor) (x : Char) : Except Fault Cursor :=
  match c.peek? with
  | none => c.fault .endInText
  | some y => if y == x then .ok c.skip else c.faultAhead .endOfSurrogatePair

/-- Read the second unit of a pair with its backslash and letter. -/
def readSecondUnit (c : Cursor) : Reading Nat :=
  match expectInPair c '\\' with
  | .error e => .error e
  | .ok c =>
    match expectInPair c 'u' with
    | .error e => .error e
    | .ok c => readUnit c

/-- The character of an escape, and its length without the backslash. -/
def escape (c : Cursor) : Except Fault (Char × Nat) :=
  match c.peek? with
  | none => c.fault .endInText
  | some 'u' =>
    match readUnit c.skip with
    | .error e => .error e
    | .ok (n, c) =>
      if isTrailing n then c.fault .loneSurrogate
      else if isLeading n then
        match readSecondUnit c with
        | .error e => .error e
        | .ok (m, c) => if isTrailing m then .ok (pairChar n m, 11) else c.fault .loneSurrogate
      else .ok (Char.ofNat n, 5)
  | some x =>
    match letter? x with
    | some y => .ok (y, 1)
    | none => c.faultAhead .invalidEscape

/-- Read on from behind the opening quote, with the characters so far newest first. The first `skip`
characters belong to an escape already read. -/
def readFrom (text : List Char) (skip : Nat) (place : Place) : List Char → Reading String
  | [] => .error ⟨.endInText, place⟩
  | x :: rest =>
    match skip with
    | skip + 1 => readFrom text skip (place.behind x) rest
    | 0 =>
      if x == '\x22' then .ok (String.ofList text.reverse, ⟨rest, place.behind x⟩)
      else if x == '\\' then
        match escape ⟨rest, place.behind x⟩ with
        | .ok (y, length) => readFrom (y :: text) length (place.behind x) rest
        | .error e => .error e
      else if x.toNat < 0x20 then .error ⟨.controlCharacter, place.behind x⟩
      else readFrom (x :: text) 0 (place.behind x) rest

def read (c : Cursor) : Reading String :=
  readFrom [] 0 c.place c.rest

end PromptRunner.Json.Quoted
