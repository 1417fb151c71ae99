import Mathlib.Algebra.Order.Field.Power
import Mathlib.Data.Rat.Cast.Order
import Mathlib.Tactic.FieldSimp
import Mathlib.Tactic.Linarith
import Mathlib.Tactic.NormNum
import Mathlib.Tactic.Positivity
import Mathlib.Tactic.Ring
import PromptRunner.Decimal.Shortest

/-!
# Rounding to doubles

A fraction is rounded to the nearest mantissa at the exponent that gives the mantissa its full
length, or at the least exponent. So it lies in the interval of the double that it is rounded to,
and in no other, as the intervals of two doubles have no number in common.
-/

namespace PromptRunner.Decimal

theorem cast_twoTo (n : Nat) : ((twoTo n : Nat) : ℚ) = 2 ^ n := by
  have hpow : twoTo n = 2 ^ n := rfl
  rw [hpow, Nat.cast_pow, Nat.cast_ofNat]

theorem cast_tenTo (n : Nat) : ((tenTo n : Nat) : ℚ) = 10 ^ n := by
  have hpow : tenTo n = 10 ^ n := rfl
  rw [hpow, Nat.cast_pow, Nat.cast_ofNat]

/-- A whole number that no other one is nearer to, and an even one if another is as near. -/
structure IsNearest (x : ℚ) (n : Nat) : Prop where
  low : (n : ℚ) - 1 / 2 ≤ x
  high : x ≤ n + 1 / 2
  odd : n % 2 = 1 → (n : ℚ) - 1 / 2 < x ∧ x < n + 1 / 2

namespace IsNearest

variable {y : ℚ} {m : Nat}

theorem le_of_lt (h : IsNearest y m) {n : Nat} (hy : y < 2 ^ n) : m ≤ twoTo n := by
  have hnear := h.low
  have hless : (m : ℚ) < 2 ^ n + 1 := by linarith
  rw [← cast_twoTo] at hless
  exact Nat.lt_succ_iff.mp (by exact_mod_cast hless)

theorem le_of_le (h : IsNearest y m) {n : Nat} (hy : 2 ^ n ≤ y) : twoTo n ≤ m := by
  have hnear := h.high
  have hless : (2 : ℚ) ^ n < m + 1 := by linarith
  rw [← cast_twoTo] at hless
  exact Nat.lt_succ_iff.mp (by exact_mod_cast hless)

end IsNearest

namespace Double

theorem isNearest_roundQuotient (num : Nat) {den : Nat} (hden : 0 < den) :
    IsNearest (num / den) (roundQuotient num den) := by
  have hpos : (0 : ℚ) < den := by exact_mod_cast hden
  have hdiv : den * (num / den) + num % den = num := Nat.div_add_mod num den
  have hmod : num % den < den := Nat.mod_lt num hden
  rw [roundQuotient]
  obtain ⟨q, hq⟩ : ∃ q, q = num / den := ⟨_, rfl⟩
  obtain ⟨r, hr⟩ : ∃ r, r = num % den := ⟨_, rfl⟩
  rw [← hq, ← hr] at hdiv
  rw [← hr] at hmod
  rw [← hq, ← hr]
  -- The remainder as a part of the denominator says which of the two neighbours is nearer.
  obtain ⟨t, ht⟩ : ∃ t, t = (r : ℚ) / den := ⟨_, rfl⟩
  have hvalue : (num : ℚ) / den = q + t := by
    rw [ht, ← hdiv]
    push_cast
    field_simp
  have hlow : 0 ≤ t := by
    rw [ht]
    positivity
  have hhigh : t < 1 := by
    rw [ht, div_lt_one hpos]
    exact_mod_cast hmod
  have htie (hless : ¬ 2 * r < den) (hmore : ¬ den < 2 * r) : t = 1 / 2 := by
    rw [ht, div_eq_iff hpos.ne']
    have hcast : (2 * r : ℚ) = den := by exact_mod_cast Nat.le_antisymm (by omega) (by omega)
    linarith
  rw [hvalue]
  split_ifs with hless hmore heven
  · have hhalf : t < 1 / 2 := by
      rw [ht, div_lt_iff₀ hpos]
      have hcast : (2 * r : ℚ) < den := by exact_mod_cast hless
      linarith
    exact ⟨by linarith, by linarith, fun _ => ⟨by linarith, by linarith⟩⟩
  · have hhalf : 1 / 2 < t := by
      rw [ht, lt_div_iff₀ hpos]
      have hcast : (den : ℚ) < 2 * r := by exact_mod_cast hmore
      linarith
    have hnext : ((q + 1 : Nat) : ℚ) = q + 1 := Nat.cast_succ q
    exact ⟨by linarith, by linarith, fun _ => ⟨by linarith, by linarith⟩⟩
  · have hhalf := htie hless hmore
    exact ⟨by linarith, by linarith, fun hodd => by omega⟩
  · have hhalf := htie hless hmore
    have hnext : ((q + 1 : Nat) : ℚ) = q + 1 := Nat.cast_succ q
    exact ⟨by linarith, by linarith, fun hodd => by omega⟩

theorem inUnits_spec (num : Nat) {den : Nat} (hden : 0 < den) (exponent : Int) :
    0 < (inUnits num den exponent).2 ∧
      ((inUnits num den exponent).1 : ℚ) / (inUnits num den exponent).2 =
        num / den / 2 ^ exponent := by
  have hpos : (0 : ℚ) < den := by exact_mod_cast hden
  rw [inUnits]
  split_ifs with hexponent
  · obtain ⟨n, rfl⟩ := Int.eq_ofNat_of_zero_le hexponent
    have hunit : 0 < twoTo n := Nat.pow_pos (by decide)
    refine ⟨Nat.mul_pos hden hunit, ?_⟩
    simp only [Int.toNat_natCast, Nat.cast_mul, cast_twoTo, zpow_natCast, div_div]
  · obtain ⟨n, hn⟩ := Int.eq_ofNat_of_zero_le (by omega : 0 ≤ -exponent)
    have hunit : exponent = -(n : Int) := by omega
    refine ⟨hden, ?_⟩
    rw [hunit, neg_neg, Int.toNat_natCast, Nat.cast_mul, cast_twoTo, zpow_neg, zpow_natCast]
    field_simp

theorem log2_spec {n : Nat} (hn : 0 < n) :
    (2 : ℚ) ^ (Nat.log2 n : Int) ≤ n ∧ (n : ℚ) < 2 ^ ((Nat.log2 n : Int) + 1) := by
  have hlow : 2 ^ Nat.log2 n ≤ n := Nat.log2_self_le hn.ne'
  have hhigh : n < 2 ^ (Nat.log2 n + 1) := Nat.lt_log2_self
  constructor
  · rw [zpow_natCast]
    exact_mod_cast hlow
  · have hcast : (Nat.log2 n : Int) + 1 = ((Nat.log2 n + 1 : Nat) : Int) := rfl
    rw [hcast, zpow_natCast]
    exact_mod_cast hhigh

/-- At one of two exponents the mantissa of a fraction has full length. -/
theorem guess_spec {num den : Nat} (hnum : 0 < num) (hden : 0 < den) {guess : Int}
    (hguess : guess = (Nat.log2 num : Int) - Nat.log2 den - 52) :
    (2 : ℚ) ^ (guess + 51) ≤ num / den ∧ (num : ℚ) / den < 2 ^ (guess + 53) := by
  have hpos : (0 : ℚ) < den := by exact_mod_cast hden
  obtain ⟨hnumLow, hnumHigh⟩ := log2_spec hnum
  obtain ⟨hdenLow, hdenHigh⟩ := log2_spec hden
  constructor
  · have hexponent : (Nat.log2 num : Int) = guess + 51 + (Nat.log2 den + 1) := by omega
    rw [hexponent, zpow_add₀ (by norm_num)] at hnumLow
    rw [le_div_iff₀ hpos]
    have hpow : (0 : ℚ) < 2 ^ (guess + 51) := by positivity
    nlinarith
  · have hexponent : (Nat.log2 num : Int) + 1 = guess + 53 + Nat.log2 den := by omega
    rw [hexponent, zpow_add₀ (by norm_num)] at hnumHigh
    rw [div_lt_iff₀ hpos]
    have hpow : (0 : ℚ) < 2 ^ (guess + 53) := by positivity
    nlinarith

theorem two_zpow_le {a b : Int} (h : a ≤ b) : (2 : ℚ) ^ a ≤ 2 ^ b :=
  zpow_le_zpow_right₀ (by norm_num) h

/-- At the exponent that a comparison chooses the mantissa of a fraction has full length. -/
theorem chosen_spec {num den : Nat} (hnum : 0 < num) (hden : 0 < den) {guess e : Int}
    (hguess : guess = (Nat.log2 num : Int) - Nat.log2 den - 52)
    (he : e = if (inUnits num den guess).1 < (inUnits num den guess).2 * twoTo 52 then guess - 1
      else guess) :
    (2 : ℚ) ^ (e + 52) ≤ num / den ∧ (num : ℚ) / den < 2 ^ (e + 53) := by
  obtain ⟨hbelow, habove⟩ := guess_spec hnum hden hguess
  obtain ⟨hunit, hvalue⟩ := inUnits_spec num hden guess
  have hpos : (0 : ℚ) < (inUnits num den guess).2 := by exact_mod_cast hunit
  have hpow : (0 : ℚ) < 2 ^ guess := by positivity
  have hless : (inUnits num den guess).1 < (inUnits num den guess).2 * twoTo 52 ↔
      (num : ℚ) / den < 2 ^ (guess + 52) := by
    have hsplit : (2 : ℚ) ^ (guess + 52) = 2 ^ 52 * 2 ^ guess := by
      rw [zpow_add₀ (by norm_num), mul_comm]
      rfl
    rw [hsplit, ← div_lt_iff₀ hpow, ← hvalue, div_lt_iff₀ hpos, ← Nat.cast_lt (α := ℚ),
      Nat.cast_mul, cast_twoTo, mul_comm]
  rw [he]
  split_ifs with hcase
  · have hhalf := hless.mp hcase
    have hlow : guess - 1 + 52 = guess + 51 := by omega
    have hhigh : guess - 1 + 53 = guess + 52 := by omega
    rw [hlow, hhigh]
    exact ⟨hbelow, hhalf⟩
  · exact ⟨not_lt.mp (mt hless.mpr hcase), habove⟩

/-- At the exponent of a fraction its mantissa has full length, if the exponent is not the least
one. -/
theorem exponentOf_spec {num den : Nat} (hnum : 0 < num) (hden : 0 < den) :
    leastExponent ≤ exponentOf num den ∧
      (num : ℚ) / den < 2 ^ (exponentOf num den + 53) ∧
      (leastExponent < exponentOf num den →
        (2 : ℚ) ^ (exponentOf num den + 52) ≤ num / den) := by
  obtain ⟨guess, hguess⟩ : ∃ g, g = (Nat.log2 num : Int) - Nat.log2 den - 52 := ⟨_, rfl⟩
  obtain ⟨e, he⟩ : ∃ e, e = if (inUnits num den guess).1 < (inUnits num den guess).2 * twoTo 52 then
      guess - 1 else guess := ⟨_, rfl⟩
  have hexponent : exponentOf num den = max e leastExponent := by
    rw [exponentOf, ← hguess, he]
  obtain ⟨hfull, hhigh⟩ := chosen_spec hnum hden hguess he
  rw [hexponent]
  refine ⟨le_max_right e leastExponent, ?_, ?_⟩
  · have hmono := two_zpow_le (add_le_add_left (le_max_left e leastExponent) 53)
    exact lt_of_lt_of_le hhigh hmono
  · intro hleast
    have hsame : max e leastExponent = e := by omega
    rw [hsame]
    exact hfull

end Double

/-! ## Intervals -/

namespace Shortest

def Interval.Has (i : Interval) (y : ℚ) : Prop :=
  i.low ≤ y ∧ y ≤ i.high ∧ (i.closed = false → i.low < y ∧ y < i.high)

variable {m m' : Nat} {e e' : Int} {x y : ℚ}

theorem cast_high (m : Nat) (e : Int) : ((interval m e).high : ℚ) = 4 * m + 2 := by
  simp only [interval]
  push_cast
  rfl

theorem cast_low_narrow (h : m = twoTo 52 ∧ Double.leastExponent < e) :
    ((interval m e).low : ℚ) = 4 * m - 1 := by
  have hm : 1 ≤ 4 * m := by
    rw [h.1]
    decide
  simp only [interval, h, and_self, if_true]
  rw [← h.1, Nat.cast_sub hm]
  push_cast
  rfl

theorem cast_low (h : ¬ (m = twoTo 52 ∧ Double.leastExponent < e)) :
    ((interval m e).low : ℚ) = max (4 * (m : ℚ) - 2) 0 := by
  simp only [interval, h, if_false]
  rcases Nat.eq_zero_or_pos m with rfl | hm
  · simp
  · have hm' : (1 : ℚ) ≤ m := by exact_mod_cast hm
    have hpos : (0 : ℚ) ≤ 4 * m - 2 := by linarith
    rw [max_eq_left hpos, Nat.cast_sub (by omega)]
    push_cast
    rfl

theorem closed_eq_false (hm : m % 2 = 1) (e : Int) : (interval m e).closed = false := by
  have hodd : ¬ m % 2 = 0 := by omega
  exact decide_eq_false hodd

/-- An interval reaches at most half a unit to both sides, and not so far if the mantissa is odd. -/
theorem Interval.Has.bounds (h : (interval m e).Has y) :
    (4 * (m : ℚ) - 2 ≤ y ∧ y ≤ 4 * m + 2) ∧
      (m % 2 = 1 → 4 * (m : ℚ) - 2 < y ∧ y < 4 * m + 2) := by
  obtain ⟨hlow, hhigh, hopen⟩ := h
  have hleast : 4 * (m : ℚ) - 2 ≤ (interval m e).low := by
    by_cases hnarrow : m = twoTo 52 ∧ Double.leastExponent < e
    · rw [cast_low_narrow hnarrow]
      linarith
    · rw [cast_low hnarrow]
      exact le_max_left (4 * (m : ℚ) - 2) 0
  rw [cast_high] at hhigh hopen
  refine ⟨⟨hleast.trans hlow, hhigh⟩, ?_⟩
  intro hodd
  obtain ⟨hlow', hhigh'⟩ := hopen (closed_eq_false hodd e)
  exact ⟨hleast.trans_lt hlow', hhigh'⟩

theorem has_of_isNearest (h : IsNearest y m) (hy : 0 ≤ y)
    (hfull : m = twoTo 52 → Double.leastExponent < e → m ≤ y) : (interval m e).Has (4 * y) := by
  have hlow := h.low
  have hhigh := h.high
  rw [Interval.Has, cast_high]
  by_cases hnarrow : m = twoTo 52 ∧ Double.leastExponent < e
  · have hvalue := hfull hnarrow.1 hnarrow.2
    rw [cast_low_narrow hnarrow]
    refine ⟨by linarith, by linarith, ?_⟩
    intro hclosed
    have hodd : decide (m % 2 = 0) = false := hclosed
    rw [hnarrow.1] at hodd
    exact absurd hodd (by decide)
  · rw [cast_low hnarrow]
    have hlow' : max (4 * (m : ℚ) - 2) 0 ≤ 4 * y := max_le (by linarith) (by linarith)
    refine ⟨hlow', by linarith, ?_⟩
    intro hclosed
    have hodd : m % 2 = 1 := by
      have hne : ¬ m % 2 = 0 := of_decide_eq_false hclosed
      omega
    obtain ⟨hless, hless'⟩ := h.odd hodd
    have hm : (1 : ℚ) ≤ m := by exact_mod_cast (by omega : 1 ≤ m)
    have hlow' : max (4 * (m : ℚ) - 2) 0 < 4 * y := max_lt (by linarith) (by linarith)
    exact ⟨hlow', by linarith⟩

/-- What is rounded beyond the last mantissa lies in the interval of the first one of the next
exponent. -/
theorem has_of_carry (h : IsNearest y (twoTo 53)) (hhigh : y < 2 ^ 53)
    (he : Double.leastExponent < e) : (interval (twoTo 52) e).Has (4 * (y / 2)) := by
  have hlow := h.low
  rw [cast_twoTo] at hlow
  rw [Interval.Has, cast_high, cast_low_narrow ⟨rfl, he⟩, cast_twoTo]
  refine ⟨by linarith, by linarith, ?_⟩
  intro hclosed
  have hodd : decide (twoTo 52 % 2 = 0) = false := hclosed
  exact absurd hodd (by decide)

end Shortest

/-! ## Rounding a fraction -/

namespace Double

/-- A mantissa and an exponent as they come from rounding: the mantissa has full length, unless the
exponent is the least one. -/
structure IsNormalized (m : Nat) (e : Int) : Prop where
  high : m < twoTo 53
  least : leastExponent ≤ e
  full : leastExponent < e → twoTo 52 ≤ m

/-- The double with a mantissa and an exponent, or an infinity if the exponent is too great. -/
def rounded (negative : Bool) (p : Nat × Int) : Double :=
  if greatestExponent < p.2 then infinite negative else finite negative p.1 p.2

/-- The double of a fraction, from its exponent and its mantissa before the carry. -/
theorem ofFraction_eq {num den m : Nat} {e : Int} (hnum : num ≠ 0) (he : e = exponentOf num den)
    (hm : m = roundQuotient (inUnits num den e).1 (inUnits num den e).2) (negative : Bool) :
    ofFraction negative num den =
      rounded negative (if m = mantissaBound then (twoTo 52, e + 1) else (m, e)) := by
  have hbehind (n d : Nat) (h : m = roundQuotient n d) :
      rounded negative
        (if roundQuotient n d = mantissaBound then (twoTo 52, e + 1) else (roundQuotient n d, e)) =
          rounded negative (if m = mantissaBound then (twoTo 52, e + 1) else (m, e)) := by
    rewrite [← h]
    rfl
  unfold ofFraction
  refine (if_neg hnum).trans ?_
  rewrite [← he]
  exact hbehind _ _ hm

theorem exponentOf_units {num den : Nat} (hnum : 0 < num) (hden : 0 < den) {e : Int}
    (he : e = exponentOf num den) :
    (num : ℚ) / den / 2 ^ e < 2 ^ 53 ∧
      (leastExponent < e → 2 ^ 52 ≤ (num : ℚ) / den / 2 ^ e) := by
  obtain ⟨-, habove, hbelow⟩ := exponentOf_spec hnum hden
  rw [← he] at habove hbelow
  have hpow : (0 : ℚ) < 2 ^ e := by positivity
  rw [zpow_add₀ (by norm_num), mul_comm] at habove hbelow
  exact ⟨(div_lt_iff₀ hpow).mpr habove, fun hleast => (le_div_iff₀ hpow).mpr (hbelow hleast)⟩

/-- A positive fraction lies in the interval of the mantissa and the exponent that it is rounded
to. -/
theorem ofFraction_spec {num den : Nat} (hnum : 0 < num) (hden : 0 < den) (negative : Bool) :
    ∃ m e, ofFraction negative num den = rounded negative (m, e) ∧ IsNormalized m e ∧
      (Shortest.interval m e).Has (4 * (num / den / 2 ^ e)) := by
  obtain ⟨e, he⟩ : ∃ e, e = exponentOf num den := ⟨_, rfl⟩
  have hleast : leastExponent ≤ e := he ▸ (exponentOf_spec hnum hden).1
  obtain ⟨hyhigh, hyfull⟩ := exponentOf_units hnum hden he
  obtain ⟨hunit, hvalue⟩ := inUnits_spec num hden e
  obtain ⟨m, hm⟩ : ∃ m, m = roundQuotient (inUnits num den e).1 (inUnits num den e).2 := ⟨_, rfl⟩
  have hnear : IsNearest (num / den / 2 ^ e) m := by
    rw [hm, ← hvalue]
    exact isNearest_roundQuotient _ hunit
  have hround := ofFraction_eq hnum.ne' he hm negative
  have hy0 : (0 : ℚ) ≤ num / den / 2 ^ e := by positivity
  obtain ⟨y, hy⟩ : ∃ y, y = (num : ℚ) / den / 2 ^ e := ⟨_, rfl⟩
  rw [← hy] at hnear hyhigh hyfull hy0
  by_cases hcarry : m = mantissaBound
  · rw [if_pos hcarry] at hround
    refine ⟨twoTo 52, e + 1, hround, ⟨by decide, by omega, fun _ => Nat.le_refl _⟩, ?_⟩
    have hhalf : (num : ℚ) / den / 2 ^ (e + 1) = y / 2 := by
      rw [hy, zpow_add₀ (by norm_num), zpow_one, div_div, div_div, div_div]
    rw [hhalf]
    rw [hcarry] at hnear
    exact Shortest.has_of_carry hnear hyhigh (by omega)
  · rw [if_neg hcarry] at hround
    have hless : m < twoTo 53 := lt_of_le_of_ne (hnear.le_of_lt hyhigh) hcarry
    refine ⟨m, e, hround, ⟨hless, hleast, fun h => hnear.le_of_le (hyfull h)⟩, ?_⟩
    rw [← hy]
    refine Shortest.has_of_isNearest hnear hy0 ?_
    intro hfirst hleast'
    rw [hfirst, cast_twoTo]
    exact hyfull hleast'

end Double

/-! ## The intervals of two doubles -/

namespace Shortest

open Double (IsNormalized)

variable {m m' : Nat} {e e' : Int} {x : ℚ}

/-- Intervals of two mantissas at one exponent have no number in common. -/
theorem eq_of_has_of_has {y : ℚ} (h : (interval m e).Has y) (h' : (interval m' e).Has y) : m = m' := by
  obtain ⟨⟨hlow, hhigh⟩, hodd⟩ := h.bounds
  obtain ⟨⟨hlow', hhigh'⟩, hodd'⟩ := h'.bounds
  have hle : m ≤ m' + 1 := by
    have hcast : (m : ℚ) ≤ m' + 1 := by linarith
    exact_mod_cast hcast
  have hle' : m' ≤ m + 1 := by
    have hcast : (m' : ℚ) ≤ m + 1 := by linarith
    exact_mod_cast hcast
  by_contra hne
  -- Of two neighbours one is odd, and the interval of an odd mantissa does not have its ends.
  rcases (by omega : m = m' + 1 ∨ m' = m + 1) with hnext | hnext
  · have hcast : (m : ℚ) = m' + 1 := by exact_mod_cast hnext
    rcases (by omega : m % 2 = 1 ∨ m' % 2 = 1) with hm | hm
    · linarith [(hodd hm).1]
    · linarith [(hodd' hm).2]
  · have hcast : (m' : ℚ) = m + 1 := by exact_mod_cast hnext
    rcases (by omega : m % 2 = 1 ∨ m' % 2 = 1) with hm | hm
    · linarith [(hodd hm).2]
    · linarith [(hodd' hm).1]

/-- The interval of a mantissa of full length reaches at most a quarter below the first of these. -/
theorem Interval.Has.low_full {y : ℚ} (h : (interval m e).Has (4 * y)) (hm : twoTo 52 ≤ m)
    (he : Double.leastExponent < e) : 2 ^ 52 - 1 / 4 ≤ y := by
  rcases hm.eq_or_lt with hfirst | hmore
  · have hlow := h.1
    rw [cast_low_narrow ⟨hfirst.symm, he⟩, ← hfirst, cast_twoTo] at hlow
    linarith
  · have hlow := h.bounds.1.1
    have hcast : ((twoTo 52 : Nat) : ℚ) + 1 ≤ m := by exact_mod_cast hmore
    rw [cast_twoTo] at hcast
    linarith

/-- The interval of a mantissa ends below half a unit before the first mantissa of too great
length. -/
theorem Interval.Has.high_lt {y : ℚ} (h : (interval m e).Has (4 * y)) (hm : m < twoTo 53) :
    y < 2 ^ 53 - 1 / 2 := by
  obtain ⟨⟨-, hhigh⟩, hodd⟩ := h.bounds
  have hcast : (m : ℚ) + 1 ≤ ((twoTo 53 : Nat) : ℚ) := by exact_mod_cast hm
  rcases (Nat.succ_le_of_lt hm).eq_or_lt with hlast | hless
  · have hodd' : m % 2 = 1 := by
      have heven : twoTo 53 % 2 = 0 := by decide
      omega
    have hhigh' := (hodd hodd').2
    rw [cast_twoTo] at hcast
    linarith
  · have hcast' : (m : ℚ) + 1 + 1 ≤ ((twoTo 53 : Nat) : ℚ) := by exact_mod_cast hless
    rw [cast_twoTo] at hcast'
    linarith

/-- A number in an interval is not in an interval with a greater exponent. -/
theorem not_has_of_lt (hn : IsNormalized m e) (hn' : IsNormalized m' e') (hless : e < e')
    (h : (interval m e).Has (4 * (x / 2 ^ e))) : ¬ (interval m' e').Has (4 * (x / 2 ^ e')) := by
  intro h'
  have hleast : Double.leastExponent < e' := lt_of_le_of_lt hn.least hless
  have hlow := h'.low_full (hn'.full hleast) hleast
  have hhigh := h.high_lt hn.high
  obtain ⟨n, hstep⟩ := Int.eq_ofNat_of_zero_le (by omega : 0 ≤ e' - e - 1)
  have he' : e' = e + (n + 1 : Nat) := by omega
  have hscale : x / 2 ^ e = x / 2 ^ e' * 2 ^ (n + 1) := by
    rw [he', zpow_add₀ (by norm_num), zpow_natCast]
    field_simp
  have htwo : (2 : ℚ) ≤ 2 ^ (n + 1) := by
    have hone : (1 : ℚ) ≤ 2 ^ n := one_le_pow₀ (by norm_num)
    rw [pow_succ]
    linarith
  have hproduct : (2 ^ 52 - 1 / 4) * 2 ≤ x / 2 ^ e' * 2 ^ (n + 1) := by
    apply mul_le_mul hlow htwo (by norm_num)
    linarith
  rw [hscale] at hhigh
  linarith

/-- A number lies in the interval of one double only. -/
theorem eq_of_has (hn : IsNormalized m e) (hn' : IsNormalized m' e')
    (h : (interval m e).Has (4 * (x / 2 ^ e))) (h' : (interval m' e').Has (4 * (x / 2 ^ e'))) :
    m = m' ∧ e = e' := by
  rcases lt_trichotomy e e' with hless | heq | hmore
  · exact absurd h' (not_has_of_lt hn hn' hless h)
  · rw [← heq] at h'
    exact ⟨eq_of_has_of_has h h', heq⟩
  · exact absurd h (not_has_of_lt hn' hn hmore h')

end Shortest

end PromptRunner.Decimal
