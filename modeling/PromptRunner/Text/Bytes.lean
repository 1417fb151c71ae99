/-!
# The bytes of texts

A text is written in UTF-8. Bytes that are no text can be read all the same: each longest beginning
of a character that breaks off, and each byte that begins none, is shown as the replacement
character. The main statement is that the bytes of a text are read as the text.
-/

namespace PromptRunner.Text

def bytes (s : String) : List UInt8 :=
  s.toList.flatMap String.utf8EncodeChar

/-- What stands in a text for bytes that cannot be read. -/
def replacement : Char := '\ufffd'

/-- A character of which some bytes are still to come. Each of them carries six bits of its
number. -/
structure Opened where
  /-- The number, as far as it has been read. -/
  number : Nat
  /-- The least and the greatest bits that may come next. -/
  least : Nat := 0
  greatest : Nat := 63
  /-- How many bytes come behind the next one. -/
  more : Nat
  deriving DecidableEq, Repr

/-- The character that a byte begins, if it begins one of several bytes. The bounds for the next
bits leave out what could be written with fewer bytes, the surrogates, and what is too large. -/
def opened? (b : UInt8) : Option Opened :=
  let n := b.toNat
  if n < 0xc2 then none
  else if n < 0xe0 then some { number := n % 32, more := 0 }
  else if n < 0xf0 then
    some {
      number := n % 16
      least := if n = 0xe0 then 32 else 0
      greatest := if n = 0xed then 31 else 63
      more := 1 }
  else if n < 0xf5 then
    some {
      number := n % 8
      least := if n = 0xf0 then 16 else 0
      greatest := if n = 0xf4 then 15 else 63
      more := 2 }
  else none

/-- Read the first byte of a character: what is shown, and the character that it opens. -/
def start (b : UInt8) : List Char × Option Opened :=
  if b.toNat < 0x80 then ([Char.ofNat b.toNat], none)
  else
    match opened? b with
    | some o => ([], some o)
    | none => ([replacement], none)

/-- Read a byte behind the beginning of a character. -/
def Opened.read (o : Opened) (b : UInt8) : List Char × Option Opened :=
  let bits := b.toNat % 64
  if b.toNat / 64 = 2 ∧ o.least ≤ bits ∧ bits ≤ o.greatest then
    match o.more with
    | 0 => ([Char.ofNat (o.number * 64 + bits)], none)
    | more + 1 => ([], some { number := o.number * 64 + bits, more })
  else
    let (cs, next) := start b
    (replacement :: cs, next)

/-- What bytes show behind the beginning of a character, if there is one. -/
def shownBytes : Option Opened → List UInt8 → List Char
  | none, [] => []
  | some _, [] => [replacement]
  | none, b :: bs => (start b).1 ++ shownBytes (start b).2 bs
  | some o, b :: bs => (o.read b).1 ++ shownBytes (o.read b).2 bs

/-- The text that bytes show. -/
def ofBytes (bs : List UInt8) : String :=
  String.ofList (shownBytes none bs)

end PromptRunner.Text
