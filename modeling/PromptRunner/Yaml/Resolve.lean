import PromptRunner.Decimal.Literal
import PromptRunner.Yaml.Value
/-!
# Plain scalars as values

A plain scalar may stand for nothing, a truth value or a number. Integers have to fit into 64 bits,
with or without a sign; a longer one, up to 128 bits, is no value at all.
-/

namespace PromptRunner.Yaml

/-- What a plain scalar stands for. -/
inductive Resolved where
  | null
  | bool (b : Bool)
  | int (n : Int)
  /-- An integer that fits into 128 bits but not into 64. -/
  | wide
  | float (d : Decimal.Double)
  | text
  deriving DecidableEq, Repr

namespace Resolve

def isNull (cs : List Char) : Bool :=
  ["~", "null", "Null", "NULL"].contains (String.ofList cs)

def bool? (cs : List Char) : Option Bool :=
  if ["true", "True", "TRUE"].contains (String.ofList cs) then some true
  else if ["false", "False", "FALSE"].contains (String.ofList cs) then some false
  else none

/-- The value of a digit in bases up to 36. -/
def digit? (c : Char) : Option Nat :=
  if c.isDigit then some (c.toNat - '0'.toNat)
  else if c.isLower then some (c.toNat - 'a'.toNat + 10)
  else if c.isUpper then some (c.toNat - 'A'.toNat + 10)
  else none

/-- A number in a base, without a sign and with at least one digit. -/
def natural? (base : Nat) (cs : List Char) : Option Nat :=
  if cs.isEmpty then none
  else
    cs.foldl
      (fun n c => n.bind fun n => (digit? c).bind fun d => if d < base then some (base * n + d) else none)
      (some 0)

/-- A number after the sign that may stand before it. -/
def unsigned (cs : List Char) : List Char :=
  match cs with
  | '+' :: rest => rest
  | '-' :: rest => rest
  | rest => rest

/-- Digits with a zero before them, which are a text and not a number. -/
def isPaddedNumber (cs : List Char) : Bool :=
  match unsigned cs with
  | '0' :: d :: ds => (d :: ds).all Char.isDigit
  | _ => false

/-- The number after a sign has been taken away: decimal, or with the base in front. -/
def magnitude? (whole : List Char) : List Char → Option Nat
  | '0' :: 'x' :: ds => natural? 16 ds
  | '0' :: 'o' :: ds => natural? 8 ds
  | '0' :: 'b' :: ds => natural? 2 ds
  | ds => if isPaddedNumber whole then none else natural? 10 ds

/-- An integer that is not negative, below `bound`. -/
def positive? (bound : Nat) (cs : List Char) : Option Nat :=
  let body := match cs with
    | '+' :: rest => rest
    | rest => rest
  (magnitude? cs body).filter (· < bound)

/-- An integer with a minus sign, down to the negative of `bound`. -/
def negative? (bound : Nat) (cs : List Char) : Option Int :=
  match cs with
  | '-' :: rest => ((magnitude? cs rest).filter (· ≤ bound)).map fun n => -(n : Int)
  | _ => none

/-- An integer of 64 bits. -/
def int? (cs : List Char) : Option Int :=
  match positive? (Decimal.twoTo 64) cs with
  | some n => some n
  | none => negative? (Decimal.twoTo 63) cs

/-- Whether an integer fits into 128 bits. -/
def isWide (cs : List Char) : Bool :=
  (positive? (Decimal.twoTo 128) cs).isSome || (negative? (Decimal.twoTo 127) cs).isSome

/-- The words for infinity and for what is not a number, and finite decimal literals. -/
def float? (cs : List Char) : Option Decimal.Double :=
  let (body, signed) := match cs with
    | '+' :: rest => (rest, true)
    | rest => (rest, false)
  let doubled := signed && (body.head? == some '+' || body.head? == some '-')
  if doubled then none
  else if [".inf", ".Inf", ".INF"].contains (String.ofList body) then some (.infinite false)
  else if ["-.inf", "-.Inf", "-.INF"].contains (String.ofList cs) then some (.infinite true)
  else if [".nan", ".NaN", ".NAN"].contains (String.ofList cs) then some .notANumber
  else (Decimal.literal? body).filter fun d => d.isFinite

end Resolve

def resolve (cs : List Char) : Resolved :=
  if cs.isEmpty || Resolve.isNull cs then .null
  else
    match Resolve.bool? cs with
    | some b => .bool b
    | none =>
      match Resolve.int? cs with
      | some n => .int n
      | none =>
        if Resolve.isWide cs then .wide
        else if Resolve.isPaddedNumber cs then .text
        else
          match Resolve.float? cs with
          | some d => .float d
          | none => .text

end PromptRunner.Yaml
