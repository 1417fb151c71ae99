import PromptRunner.Json.Cursor
import PromptRunner.Json.Value
/-!
# Reading numbers

An integer of 64 bits stays an integer, and every other number becomes a double. Its digits are
gathered in a significand of 64 bits, and digits that do not fit are left out; the significand is
rounded, and so is its product or quotient with a power of ten.
-/

namespace PromptRunner.Json

/-- A number of a JSON text. -/
inductive Number where
  | int (n : Int)
  | float (d : Decimal.Double)
  deriving DecidableEq, Repr

namespace Number

def significandBound : Nat := Decimal.twoTo 64

/-- The bound of the digits of an exponent. -/
def exponentBound : Nat := Decimal.twoTo 31

def digit (c : Char) : Nat :=
  c.toNat - '0'.toNat

def powerLimit : Nat := 308

def power (n : Nat) : Decimal.Double :=
  .ofFraction false (Decimal.tenTo n) 1

/-- Divide by a power of ten, in steps if it is large. -/
def shrink : Nat → Decimal.Double → Nat → Decimal.Double
  | 0, d, _ => d
  | steps + 1, d, n =>
    if n ≤ powerLimit then d.divide (power n)
    else
      let next := d.divide (power powerLimit)
      if next = .zero false then next else shrink steps next (n - powerLimit)

/-- The double of a significand and an exponent, or none if it is too large. -/
def scale? (significand : Nat) (exponent : Int) : Option Decimal.Double :=
  let d := Decimal.Double.ofFraction false significand 1
  if d = .zero false then some d
  else if 0 ≤ exponent then
    if powerLimit < exponent.toNat then none
    else (some (d.multiply (power exponent.toNat))).filter fun d => d.isFinite
  else some (shrink 5 d (-exponent).toNat)

def signed (negative : Bool) (d : Decimal.Double) : Decimal.Double :=
  if negative then d.negate else d

/-- The number of a significand and an exponent. -/
def scaled (negative : Bool) (significand : Nat) (exponent : Int) (c : Cursor) : Reading Number :=
  match scale? significand exponent with
  | some d => .ok (.float (signed negative d), c)
  | none => c.fault .numberOutOfRange

/-- Gather digits in a significand and count them, as long as they fit. -/
def gather (significand count : Nat) (place : Place) : List Char → Nat × Nat × Cursor
  | [] => (significand, count, ⟨[], place⟩)
  | x :: rest =>
    if x.isDigit && 10 * significand + digit x < significandBound then
      gather (10 * significand + digit x) (count + 1) (place.behind x) rest
    else (significand, count, ⟨x :: rest, place⟩)

def atExponent (c : Cursor) : Bool :=
  c.peek? == some 'e' || c.peek? == some 'E'

/-- The digits of an exponent; none if they pass the bound, with the cursor behind the digit that
does. -/
def exponentDigits (n : Nat) (place : Place) : List Char → Option Nat × Cursor
  | [] => (some n, ⟨[], place⟩)
  | x :: rest =>
    if x.isDigit then
      if 10 * n + digit x < exponentBound then exponentDigits (10 * n + digit x) (place.behind x) rest
      else (none, ⟨rest, place.behind x⟩)
    else (some n, ⟨x :: rest, place⟩)

def readExponent (negative : Bool) (significand : Nat) (start : Int) (c : Cursor) : Reading Number :=
  let c := c.skip
  let (down, c) :=
    match c.peek? with
    | some '+' => (false, c.skip)
    | some '-' => (true, c.skip)
    | _ => (false, c)
  match c.peek? with
  | none => c.fault .endInValue
  | some x =>
    if !x.isDigit then c.faultAhead .invalidNumber
    else
      match exponentDigits 0 c.place c.rest with
      | (some n, c) => scaled negative significand (if down then start - n else start + n) c
      | (none, c) =>
        if significand ≠ 0 && !down then c.fault .numberOutOfRange
        else .ok (.float (.zero negative), c.skipDigits.2)

def readEnd (negative : Bool) (significand : Nat) (exponent : Int) (c : Cursor) : Reading Number :=
  if atExponent c then readExponent negative significand exponent c
  else scaled negative significand exponent c

/-- Read a fraction, from its point on. -/
def readFraction (negative : Bool) (significand : Nat) (exponent : Int) (c : Cursor) :
    Reading Number :=
  let (significand, count, c) := gather significand 0 c.skip.place c.skip.rest
  match c.peek? with
  | some x =>
    if x.isDigit then readEnd negative significand (exponent - count) c.skipDigits.2
    else if count = 0 then c.faultAhead .invalidNumber
    else readEnd negative significand (exponent - count) c
  | none =>
    if count = 0 then c.fault .endInValue else readEnd negative significand (exponent - count) c

/-- Read what follows the integer digits of a number that does not fit into 64 bits. -/
def readLong (negative : Bool) (significand : Nat) (c : Cursor) : Reading Number :=
  let (count, c) := c.skipDigits
  if c.peek? == some '.' then readFraction negative significand count c
  else readEnd negative significand count c

/-- An integer, if it fits into 64 bits; minus zero is a double. -/
def ofInteger (negative : Bool) (significand : Nat) : Number :=
  if !negative then .int significand
  else if significand = 0 || Decimal.twoTo 63 < significand then
    .float (.ofFraction true significand 1)
  else .int (-(significand : Int))

def read (negative : Bool) (c : Cursor) : Reading Number :=
  match c.peek? with
  | none => c.fault .endInValue
  | some x =>
    if !x.isDigit then c.faultAhead .invalidNumber
    else
      let (significand, _, after) :=
        if x == '0' then (0, 1, c.skip) else gather 0 0 c.place c.rest
      match after.peek? with
      | some y =>
        if y.isDigit then
          if x == '0' then after.faultAhead .invalidNumber else readLong negative significand after
        else if y == '.' then readFraction negative significand 0 after
        else if atExponent after then readExponent negative significand 0 after
        else .ok (ofInteger negative significand, after)
      | none => .ok (ofInteger negative significand, after)

end Number

end PromptRunner.Json
