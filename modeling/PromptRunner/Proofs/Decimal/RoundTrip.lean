import PromptRunner.Decimal.Literal
import PromptRunner.Proofs.Decimal.ShortestDigits

/-!
# Decimal numbers rounded to doubles

A decimal number is rounded to the double in whose interval it lies. So the shortest digits of a
double are rounded to it again. A decimal number of at most fifteen digits, without zeros at its end
and in the middle of the range of doubles, is what is written for the double that it is rounded to.
-/

namespace PromptRunner.Decimal

namespace Double

structure IsPositive (m : Nat) (e : Int) : Prop extends IsNormalized m e where
  pos : 1 ≤ m
  greatest : e ≤ greatestExponent

variable {m : Nat} {e exponent : Int} {digits : Nat} {x : ℚ}

theorem digitCount_spec {n : Nat} (hn : 1 ≤ n) :
    (10 : ℚ) ^ ((digitCount n : Int) - 1) ≤ n ∧ (n : ℚ) < 10 ^ (digitCount n : Int) := by
  obtain ⟨l, hl⟩ : ∃ l, digitCount n = l + 1 :=
    ⟨digitCount n - 1, (Nat.succ_pred_eq_of_pos Nat.length_toDigits_pos).symm⟩
  have hhigh : n < 10 ^ (l + 1) := by
    rw [← hl]
    exact (Nat.length_toDigits_le_iff (by decide) Nat.length_toDigits_pos).mp (Nat.le_refl _)
  have hlow : 10 ^ l ≤ n := by
    by_contra hless
    cases l with
    | zero => omega
    | succ l =>
      have hshort := (Nat.length_toDigits_le_iff (by decide) (Nat.succ_pos l)).mpr (not_le.mp hless)
      rw [digitCount] at hl
      omega
  rw [hl]
  constructor
  · have hpred : ((l + 1 : Nat) : Int) - 1 = l := by omega
    rw [hpred, zpow_natCast]
    exact_mod_cast hlow
  · rw [zpow_natCast]
    exact_mod_cast hhigh

theorem ofDecimal_eq_ofFraction (hpos : 1 ≤ digits)
    (hlow : (10 : ℚ) ^ (-400 : Int) ≤ digits * 10 ^ exponent)
    (hhigh : (digits : ℚ) * 10 ^ exponent < 10 ^ (400 : Int)) :
    ∃ num den : Nat, 0 < num ∧ 0 < den ∧ (num : ℚ) / den = digits * 10 ^ exponent ∧
      ∀ negative, ofDecimal negative digits exponent = ofFraction negative num den := by
  have hpow : (0 : ℚ) < 10 ^ exponent := by positivity
  obtain ⟨hcountLow, hcountHigh⟩ := digitCount_spec hpos
  have habove := mul_lt_mul_of_pos_right hcountHigh hpow
  have hbelow := mul_le_mul_of_nonneg_right hcountLow hpow.le
  rw [← zpow_add₀ (by norm_num)] at habove hbelow
  have hless := (zpow_lt_zpow_iff_right₀ (by norm_num : (1 : ℚ) < 10)).mp (hlow.trans_lt habove)
  have hless' := (zpow_lt_zpow_iff_right₀ (by norm_num : (1 : ℚ) < 10)).mp (hbelow.trans_lt hhigh)
  have hdecimal (negative : Bool) : ofDecimal negative digits exponent =
      if 0 ≤ exponent then ofFraction negative (digits * tenTo exponent.toNat) 1
      else ofFraction negative digits (tenTo (-exponent).toNat) := by
    rw [ofDecimal, if_neg (by omega), if_neg (by omega), if_neg (by omega)]
  by_cases hexponent : 0 ≤ exponent
  · obtain ⟨n, hn⟩ := Int.eq_ofNat_of_zero_le hexponent
    have hnat : exponent.toNat = n := by omega
    refine ⟨digits * tenTo n, 1, Nat.mul_pos hpos (Nat.pow_pos (by decide)), Nat.one_pos, ?_, ?_⟩
    · rw [Nat.cast_mul, cast_tenTo, Nat.cast_one, div_one, hn, zpow_natCast]
    · intro negative
      rw [hdecimal, if_pos hexponent, hnat]
  · obtain ⟨n, hn⟩ := Int.eq_ofNat_of_zero_le (by omega : 0 ≤ -exponent)
    have hnat : (-exponent).toNat = n := by omega
    refine ⟨digits, tenTo n, hpos, Nat.pow_pos (by decide), ?_, ?_⟩
    · rw [cast_tenTo, neg_eq_iff_eq_neg.mp hn, zpow_neg, zpow_natCast, div_eq_mul_inv]
    · intro negative
      rw [hdecimal, if_neg hexponent, hnat]

/-- What lies in the interval of a double is neither very large nor very small. -/
theorem IsPositive.bounds (h : IsPositive m e)
    (hx : (Shortest.interval m e).Has (4 * (x / 2 ^ e))) :
    (10 : ℚ) ^ (-400 : Int) ≤ x ∧ x < 10 ^ (400 : Int) := by
  have hleast := h.least
  have hgreatest := h.greatest
  rw [leastExponent] at hleast
  rw [greatestExponent] at hgreatest
  have hpow : (0 : ℚ) < 2 ^ e := by positivity
  have hone : (1 : ℚ) ≤ m := by exact_mod_cast h.pos
  have hhalf : 1 / 2 ≤ x / 2 ^ e := by linarith [hx.bounds.1.1]
  have hfull : x / 2 ^ e ≤ 2 ^ 53 := by linarith [hx.high_lt h.high]
  rw [le_div_iff₀ hpow] at hhalf
  rw [div_le_iff₀ hpow] at hfull
  have hsmall : (10 : ℚ) ^ (-400 : Int) ≤ 2 ^ (e - 1) := by
    by_contra hless
    have hexponents := two_zpow_lt_ten_zpow (not_le.mp hless)
    omega
  have hlarge : (2 : ℚ) ^ (53 + e) ≤ 10 ^ (399 : Int) := by
    by_contra hless
    have hexponents := ten_zpow_lt_two_zpow (not_le.mp hless)
    omega
  rw [zpow_sub₀ (by norm_num), zpow_one] at hsmall
  rw [zpow_add₀ (by norm_num)] at hlarge
  constructor
  · linarith
  · calc x ≤ 2 ^ 53 * 2 ^ e := hfull
      _ ≤ 10 ^ (399 : Int) := hlarge
      _ < 10 ^ (400 : Int) := zpow_lt_zpow_right₀ (by norm_num) (by omega)

theorem ofDecimal_of_has (h : IsPositive m e)
    (hx : (Shortest.interval m e).Has (4 * (digits * 10 ^ exponent / 2 ^ e))) (negative : Bool) :
    ofDecimal negative digits exponent = .finite negative m e := by
  obtain ⟨hlow, hhigh⟩ := h.bounds hx
  have hpos : 1 ≤ digits := by
    by_contra hzero
    have hnone : digits = 0 := by omega
    rw [hnone, Nat.cast_zero, zero_mul] at hlow
    have hleast : (0 : ℚ) < 10 ^ (-400 : Int) := by positivity
    linarith
  obtain ⟨num, den, hnum, hden, hvalue, hdecimal⟩ := ofDecimal_eq_ofFraction hpos hlow hhigh
  obtain ⟨m', e', hround, hnormalized, hhas⟩ := ofFraction_spec hnum hden negative
  rw [hvalue] at hhas
  obtain ⟨rfl, rfl⟩ := Shortest.eq_of_has h.toIsNormalized hnormalized hx hhas
  rw [hdecimal, hround, rounded, if_neg (not_lt.mpr h.greatest)]

theorem ofDecimal_shortestDigits (h : IsPositive m e)
    (hvalue : (digits : ℚ) * 10 ^ exponent = (shortestDigits m e).value) (negative : Bool) :
    ofDecimal negative digits exponent = .finite negative m e := by
  apply ofDecimal_of_has h
  rw [hvalue]
  exact Shortest.shortestDigits_has h.pos h.high ⟨h.least, h.greatest⟩

theorem isPositive_of_ofFraction {num den : Nat} (hnum : 0 < num) (hden : 0 < den)
    {negative negative' : Bool} (h : ofFraction negative num den = .finite negative' m e)
    (hm : m ≠ 0) : IsPositive m e := by
  obtain ⟨m', e', hround, hnormalized, -⟩ := ofFraction_spec hnum hden negative
  rw [hround, rounded] at h
  split_ifs at h with hgreatest
  cases h
  exact ⟨hnormalized, Nat.pos_of_ne_zero hm, not_lt.mp hgreatest⟩

/-- A decimal number that is rounded neither to zero nor to an infinity is rounded to a positive
double with a sign. -/
theorem isPositive_of_ofDecimal {negative negative' : Bool}
    (h : ofDecimal negative digits exponent = .finite negative' m e) (hm : m ≠ 0) :
    IsPositive m e := by
  rw [ofDecimal] at h
  split_ifs at h with hdigits
  · cases h
    exact absurd rfl hm
  · cases h
    exact absurd rfl hm
  · exact isPositive_of_ofFraction
      (Nat.mul_pos (Nat.pos_of_ne_zero hdigits) (Nat.pow_pos (by decide))) Nat.one_pos h hm
  · exact isPositive_of_ofFraction (Nat.pos_of_ne_zero hdigits) (Nat.pow_pos (by decide)) h hm

end Double

/-! ## Numbers with few digits -/

/-- A number with few digits, without zeros at its end, which is neither very large nor very
small. -/
structure Digits.IsFew (d : Digits) : Prop where
  stripped : d.digits % 10 ≠ 0
  few : d.digits < 10 ^ 15
  exponent : -290 ≤ d.exponent ∧ d.exponent ≤ 290

namespace Digits

variable {d d' : Digits}

theorem IsFew.pos (h : d.IsFew) : 1 ≤ d.digits := by
  have hstripped := h.stripped
  omega

theorem IsFew.bounds (h : d.IsFew) :
    (10 : ℚ) ^ (-290 : Int) ≤ d.value ∧ d.value < 10 ^ (305 : Int) := by
  obtain ⟨hlow, hhigh⟩ := h.exponent
  have hone : (1 : ℚ) ≤ d.digits := by exact_mod_cast h.pos
  have hfew : (d.digits : ℚ) < 10 ^ (15 : Int) := by
    have hcast : ((10 ^ 15 : Nat) : ℚ) = 10 ^ (15 : Int) := by norm_num
    rw [← hcast]
    exact_mod_cast h.few
  have hpow : (0 : ℚ) < 10 ^ d.exponent := by positivity
  rw [value]
  constructor
  · calc (10 : ℚ) ^ (-290 : Int) ≤ 10 ^ d.exponent := zpow_le_zpow_right₀ (by norm_num) hlow
      _ = 1 * 10 ^ d.exponent := (one_mul _).symm
      _ ≤ d.digits * 10 ^ d.exponent := mul_le_mul_of_nonneg_right hone hpow.le
  · calc (d.digits : ℚ) * 10 ^ d.exponent < 10 ^ (15 : Int) * 10 ^ d.exponent :=
          mul_lt_mul_of_pos_right hfew hpow
      _ = 10 ^ (15 + d.exponent) := (zpow_add₀ (by norm_num) _ _).symm
      _ ≤ 10 ^ (305 : Int) := zpow_le_zpow_right₀ (by norm_num) (by omega)

open Double (IsPositive IsNormalized leastExponent greatestExponent)

/-- The exponent of a double in whose interval a number with few digits lies. -/
theorem IsFew.exponent_bounds (h : d.IsFew) {m : Nat} {e : Int} (hn : IsNormalized m e)
    (hhas : (Shortest.interval m e).Has (4 * (d.value / 2 ^ e))) :
    leastExponent < e ∧ e ≤ greatestExponent := by
  obtain ⟨hlow, hhigh⟩ := h.bounds
  have hpow : (0 : ℚ) < 2 ^ e := by positivity
  have hleast : leastExponent < e := by
    by_contra hless
    have he : e = leastExponent := le_antisymm (not_lt.mp hless) hn.least
    have hfull : d.value / 2 ^ e < 2 ^ 53 := by linarith [hhas.high_lt hn.high]
    rw [div_lt_iff₀ hpow, ← zpow_natCast, ← zpow_add₀ (by norm_num), he, leastExponent] at hfull
    have hexponents := ten_zpow_lt_two_zpow (hlow.trans_lt hfull)
    omega
  refine ⟨hleast, ?_⟩
  have hfull : (2 : ℚ) ^ 51 ≤ d.value / 2 ^ e := by
    linarith [hhas.low_full (hn.full hleast) hleast]
  rw [le_div_iff₀ hpow, ← zpow_natCast, ← zpow_add₀ (by norm_num)] at hfull
  have hexponents := two_zpow_lt_ten_zpow (hfull.trans_lt hhigh)
  rw [greatestExponent]
  omega

theorem IsFew.exists_double (h : d.IsFew) : ∃ m e, IsPositive m e ∧ shortestDigits m e = d := by
  obtain ⟨hlow, hhigh⟩ := h.bounds
  have hleast : (10 : ℚ) ^ (-400 : Int) ≤ d.value :=
    (zpow_le_zpow_right₀ (by norm_num) (by omega)).trans hlow
  have hgreatest : d.value < 10 ^ (400 : Int) :=
    hhigh.trans_le (zpow_le_zpow_right₀ (by norm_num) (by omega))
  obtain ⟨num, den, hnum, hden, hvalue, -⟩ := Double.ofDecimal_eq_ofFraction h.pos hleast hgreatest
  obtain ⟨m, e, -, hn, hhas⟩ := Double.ofFraction_spec hnum hden false
  have hsame : (num : ℚ) / den = d.value := hvalue
  rw [hsame] at hhas
  obtain ⟨hleast', hgreatest'⟩ := h.exponent_bounds hn hhas
  have hfull := hn.full hleast'
  rw [← Shortest.digits_mul_step] at hhas
  have hpos : 0 < twoTo 52 := by decide
  exact ⟨m, e, ⟨hn, by omega, hgreatest'⟩,
    Shortest.shortestDigits_eq ⟨hfull, hn.high⟩ ⟨hleast'.le, hgreatest'⟩ h.stripped h.few hhas⟩

end Digits

end PromptRunner.Decimal
