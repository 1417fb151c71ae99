import PromptRunner.Decimal.Double
import PromptRunner.Text.Digits
/-!
# Decimal literals

Reading a number that is written with a point or an exponent: digits, at least one of them, with at
most one point among them, and an exponent of at least one digit if there is one.
-/

namespace PromptRunner.Decimal

/-- The exponent after the mantissa of a literal: nothing, or `e`, a sign and digits. -/
def exponentPart : List Char → Option Int
  | [] => some 0
  | e :: cs =>
    if e = 'e' || e = 'E' then
      let (negative, ds) :=
        match cs with
        | '-' :: ds => (true, ds)
        | '+' :: ds => (false, ds)
        | ds => (false, ds)
      if ds.isEmpty || !ds.all Char.isDigit then none
      else some (if negative then -(Text.natOfDigits ds : Int) else Text.natOfDigits ds)
    else none

def unsignedLiteral (negative : Bool) (cs : List Char) : Option Double :=
  let whole := cs.takeWhile Char.isDigit
  let afterWhole := cs.dropWhile Char.isDigit
  let (fraction, rest) :=
    match afterWhole with
    | '.' :: ds => (ds.takeWhile Char.isDigit, ds.dropWhile Char.isDigit)
    | ds => ([], ds)
  if whole.isEmpty && fraction.isEmpty then none
  else
    (exponentPart rest).map fun e =>
      .ofDecimal negative (Text.natOfDigits (whole ++ fraction)) (e - fraction.length)

/-- The double that a decimal literal stands for. -/
def literal? : List Char → Option Double
  | '-' :: cs => unsignedLiteral true cs
  | '+' :: cs => unsignedLiteral false cs
  | cs => unsignedLiteral false cs

end PromptRunner.Decimal
