/-!
# Double precision numbers

A binary floating point number is a sign, a mantissa below `2 ^ 53` and an exponent of two, or an
infinity, or not a number. Rounding is exact arithmetic on natural numbers: the nearest number, and
of two equally near ones the one with the even mantissa.
-/

namespace PromptRunner.Decimal

def twoTo (n : Nat) : Nat :=
  Nat.pow 2 n

def tenTo (n : Nat) : Nat :=
  Nat.pow 10 n

/-- A double precision number; a finite one stands for `mantissa * 2 ^ exponent`. -/
inductive Double where
  | finite (negative : Bool) (mantissa : Nat) (exponent : Int)
  | infinite (negative : Bool)
  | notANumber
  deriving DecidableEq, Repr

namespace Double

def leastExponent : Int := -1074

def greatestExponent : Int := 971

def mantissaBound : Nat := twoTo 53

def zero (negative : Bool) : Double :=
  .finite negative 0 leastExponent

/-- The quotient of two natural numbers, rounded to the nearest, ties to the even one. -/
def roundQuotient (num den : Nat) : Nat :=
  let q := num / den
  let r := num % den
  if 2 * r < den then q
  else if den < 2 * r then q + 1
  else if q % 2 = 0 then q else q + 1

/-- The fraction `num / den` counted in units of `2 ^ exponent`, as a fraction again. -/
def inUnits (num den : Nat) (exponent : Int) : Nat × Nat :=
  if 0 ≤ exponent then (num, den * twoTo exponent.toNat) else (num * twoTo (-exponent).toNat, den)

/-- The exponent with which a positive fraction has a mantissa of full length, or the least one. -/
def exponentOf (num den : Nat) : Int :=
  let guess := (Nat.log2 num : Int) - Nat.log2 den - 52
  let (n, d) := inUnits num den guess
  let exponent := if n < d * twoTo 52 then guess - 1 else guess
  max exponent leastExponent

/-- The double nearest to a fraction with a sign. -/
def ofFraction (negative : Bool) (num den : Nat) : Double :=
  if num = 0 then zero negative
  else
    let exponent := exponentOf num den
    let (n, d) := inUnits num den exponent
    let mantissa := roundQuotient n d
    let (mantissa, exponent) :=
      if mantissa = mantissaBound then (twoTo 52, exponent + 1) else (mantissa, exponent)
    if greatestExponent < exponent then .infinite negative else .finite negative mantissa exponent

/-- The double nearest to `mantissa * 2 ^ exponent`. -/
def ofScaled (negative : Bool) (mantissa : Nat) (exponent : Int) : Double :=
  if 0 ≤ exponent then ofFraction negative (mantissa * twoTo exponent.toNat) 1
  else ofFraction negative mantissa (twoTo (-exponent).toNat)

def digitCount (n : Nat) : Nat :=
  (Nat.toDigits 10 n).length

/-- The double nearest to `digits * 10 ^ exponent`. Far outside the range of doubles the answer is
known without the power. -/
def ofDecimal (negative : Bool) (digits : Nat) (exponent : Int) : Double :=
  if digits = 0 then zero negative
  else if 400 < exponent + digitCount digits then .infinite negative
  else if exponent + digitCount digits < -400 then zero negative
  else if 0 ≤ exponent then ofFraction negative (digits * tenTo exponent.toNat) 1
  else ofFraction negative digits (tenTo (-exponent).toNat)

def isFinite : Double → Bool
  | .finite _ _ _ => true
  | _ => false

def negate : Double → Double
  | .finite s m e => .finite (!s) m e
  | .infinite s => .infinite (!s)
  | .notANumber => .notANumber

/-- The rounded product of two finite numbers; of others, not a number. -/
def multiply : Double → Double → Double
  | .finite s m e, .finite s' m' e' => ofScaled (s != s') (m * m') (e + e')
  | _, _ => .notANumber

/-- The rounded quotient of two finite numbers, the second not zero; of others, not a number. -/
def divide : Double → Double → Double
  | .finite s m e, .finite s' m' e' =>
    if m' = 0 then .notANumber
    else if e' ≤ e then ofFraction (s != s') (m * twoTo (e - e').toNat) m'
    else ofFraction (s != s') m (m' * twoTo (e' - e).toNat)
  | _, _ => .notANumber

/-- Equality as a key: the two zeros are equal, and so is everything that is not a number. -/
def sameKey : Double → Double → Bool
  | .finite s m e, .finite s' m' e' => (m == 0 && m' == 0) || (s == s' && m == m' && e == e')
  | .infinite s, .infinite s' => s == s'
  | .notANumber, .notANumber => true
  | _, _ => false

end Double

end PromptRunner.Decimal
