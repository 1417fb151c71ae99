import PromptRunner.Decimal.Double
/-!
# Shortest decimal digits

The decimal digits of a double are the fewest that lead back to it, and among those the nearest to
its value. For each number of digits the two neighbours of the value on the decimal grid are tried;
the first grid on which one of them rounds to the double gives the answer.
-/

namespace PromptRunner.Decimal

/-- A decimal number `digits * 10 ^ exponent`. -/
structure Digits where
  digits : Nat
  exponent : Int
  deriving DecidableEq, Repr

namespace Shortest

/-- The numbers that round to a double, in quarters of its unit, and the double itself. -/
structure Interval where
  low : Nat
  middle : Nat
  high : Nat
  /-- Whether the ends belong to the interval. -/
  closed : Bool
  deriving Repr

/-- The interval of a mantissa: half a unit to both sides, but only a quarter downwards from a power
of two, where the next smaller number is nearer. -/
def interval (mantissa : Nat) (exponent : Int) : Interval :=
  let narrow := mantissa = twoTo 52 ∧ Double.leastExponent < exponent
  { low := 4 * mantissa - (if narrow then 1 else 2)
    middle := 4 * mantissa
    high := 4 * mantissa + 2
    closed := mantissa % 2 = 0 }

/-- Quarters of a unit and steps of a decimal grid, both as multiples of a common measure: `quarter`
measures make one quarter of `2 ^ exponent`, and `grid` measures make `10 ^ k`. -/
def measures (exponent k : Int) : Nat × Nat :=
  let quarter := twoTo (max exponent 0).toNat * tenTo (max (-k) 0).toNat
  let grid := 4 * twoTo (max (-exponent) 0).toNat * tenTo (max k 0).toNat
  (quarter, grid)

/-- Whether `c * 10 ^ k` lies in the interval. -/
def covers (i : Interval) (exponent k : Int) (c : Nat) : Bool :=
  let (quarter, grid) := measures exponent k
  if i.closed then i.low * quarter ≤ c * grid && c * grid ≤ i.high * quarter
  else i.low * quarter < c * grid && c * grid < i.high * quarter

/-- Of the two neighbours of the value on a grid, the nearer one that lies in the interval; of two
equally near ones the even one. -/
def onGrid (i : Interval) (exponent k : Int) : Option Nat :=
  let (quarter, grid) := measures exponent k
  let below := i.middle * quarter / grid
  let above := below + 1
  match covers i exponent k below, covers i exponent k above with
  | false, false => none
  | true, false => some below
  | false, true => some above
  | true, true =>
    let down := i.middle * quarter - below * grid
    let up := above * grid - i.middle * quarter
    if down < up then some below
    else if up < down then some above
    else if below % 2 = 0 then some below else some above

/-- Try grids from `10 ^ k` downwards, at most `n` of them. -/
def search (i : Interval) (exponent : Int) : Nat → Int → Digits
  | 0, k => ⟨0, k⟩
  | n + 1, k =>
    match onGrid i exponent k with
    | some c => if c = 0 then search i exponent n (k - 1) else ⟨c, k⟩
    | none => search i exponent n (k - 1)

/-- A power of ten that is above the value of a mantissa of at most 53 bits, by less than three
places. -/
def startExponent (mantissa : Nat) (exponent : Int) : Int :=
  ((Nat.log2 mantissa : Int) + exponent) * 30103 / 100000 + 2

/-- The shortest digits of a positive mantissa. -/
def ofMantissa (mantissa : Nat) (exponent : Int) : Digits :=
  search (interval mantissa exponent) exponent 22 (startExponent mantissa exponent)

/-- A number without the zeros at its end. -/
def stripZeros : Nat → Digits → Digits
  | 0, d => d
  | n + 1, d => if d.digits % 10 = 0 then stripZeros n ⟨d.digits / 10, d.exponent + 1⟩ else d

end Shortest

/-- The fewest decimal digits that lead back to a positive double, without zeros at the end. -/
def shortestDigits (mantissa : Nat) (exponent : Int) : Digits :=
  Shortest.stripZeros 20 (Shortest.ofMantissa mantissa exponent)

end PromptRunner.Decimal
