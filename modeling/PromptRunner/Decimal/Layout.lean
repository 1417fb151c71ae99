import PromptRunner.Decimal.Shortest
/-!
# The layout of decimal numbers

A double is written with its shortest digits: positionally when its first digit stands at most five
places behind the point and at most sixteen before it, else with an exponent. A layout record holds
what differs between the formats that write numbers.
-/

namespace PromptRunner.Decimal

/-- What a format decides about the text of a double. -/
structure Layout where
  /-- Written between `e` and an exponent that is not negative. -/
  exponentSign : List Char
  positiveInfinity : String
  negativeInfinity : String
  notANumber : String

namespace Layout

def digitText (n : Nat) : List Char :=
  Nat.toDigits 10 n

def zeros (n : Nat) : List Char :=
  List.replicate n '0'

def exponentText (l : Layout) (e : Int) : List Char :=
  if e < 0 then '-' :: digitText (-e).toNat else l.exponentSign ++ digitText e.toNat

def positive (l : Layout) (d : Digits) : List Char :=
  let text := digitText d.digits
  let point := text.length + d.exponent
  if 0 ≤ d.exponent ∧ point ≤ 16 then text ++ zeros d.exponent.toNat ++ ['.', '0']
  else if 0 < point ∧ point ≤ 16 then text.take point.toNat ++ '.' :: text.drop point.toNat
  else if -5 < point ∧ point ≤ 0 then '0' :: '.' :: (zeros (-point).toNat ++ text)
  else
    match text with
    | [c] => c :: 'e' :: l.exponentText (point - 1)
    | c :: cs => c :: '.' :: (cs ++ 'e' :: l.exponentText (point - 1))
    | [] => []

def text (l : Layout) : Double → String
  | .infinite false => l.positiveInfinity
  | .infinite true => l.negativeInfinity
  | .notANumber => l.notANumber
  | .finite negative mantissa exponent =>
    let body :=
      if mantissa = 0 then ['0', '.', '0'] else l.positive (shortestDigits mantissa exponent)
    String.ofList (if negative then '-' :: body else body)

end Layout

end PromptRunner.Decimal
