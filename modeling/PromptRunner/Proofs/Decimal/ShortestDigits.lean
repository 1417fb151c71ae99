import Mathlib.Tactic.SplitIfs
import PromptRunner.Proofs.Decimal.Rounding

/-!
# Shortest digits

The search for the shortest digits of a double tries decimal grids from coarse to fine, and on the
last of them a step is shorter than the interval: so it finds a number in the interval. A decimal
number of at most fifteen digits is the only one on its grid, and on every coarser one, that lies in
an interval: so the search finds the digits of such a number again.
-/

namespace PromptRunner.Decimal

/-! ## Powers of two and of ten -/

theorem ten_pow_lt_two_pow {a b : Nat} (h : 10 ^ a < 2 ^ b) : 93 * a < 28 * b := by
  have hpower : (10 ^ a) ^ 93 < (2 ^ b) ^ 93 := Nat.pow_lt_pow_left h (by decide)
  have hbase : (2 ^ 93) ^ b ≤ (10 ^ 28) ^ b := Nat.pow_le_pow_left (by norm_num) b
  rw [← Nat.pow_mul, ← Nat.pow_mul, Nat.mul_comm b, Nat.pow_mul 2] at hpower
  rw [← Nat.pow_mul 10] at hbase
  have hless := (Nat.pow_lt_pow_iff_right (by decide)).mp (Nat.lt_of_lt_of_le hpower hbase)
  omega

theorem two_pow_lt_ten_pow {a b : Nat} (h : 2 ^ b < 10 ^ a) : 59 * b < 196 * a := by
  have hpower : (2 ^ b) ^ 196 < (10 ^ a) ^ 196 := Nat.pow_lt_pow_left h (by decide)
  have hbase : (10 ^ 59) ^ b ≤ (2 ^ 196) ^ b := Nat.pow_le_pow_left (by norm_num) b
  rw [← Nat.pow_mul, ← Nat.pow_mul, Nat.mul_comm b, Nat.pow_mul 2] at hpower
  rw [← Nat.pow_mul] at hbase
  have hless := (Nat.pow_lt_pow_iff_right (by decide)).mp (Nat.lt_of_le_of_lt hbase hpower)
  omega

/-- Powers of ten against powers of two, with a bound from each side for the ratio of the
exponents. -/
theorem ten_zpow_lt_two_zpow {k t : Int} (h : (10 : ℚ) ^ k < 2 ^ t) :
    0 ≤ t ∧ (k < 0 ∨ 93 * k < 28 * t) ∨ t < 0 ∧ 196 * k < 59 * t := by
  rcases lt_or_ge k 0 with hk | hk
  · rcases lt_or_ge t 0 with ht | ht
    · obtain ⟨a, ha⟩ := Int.eq_ofNat_of_zero_le (by omega : 0 ≤ -k)
      obtain ⟨b, hb⟩ := Int.eq_ofNat_of_zero_le (by omega : 0 ≤ -t)
      have hka : k = -(a : Int) := by omega
      have htb : t = -(b : Int) := by omega
      rw [hka, htb, zpow_neg, zpow_neg, zpow_natCast, zpow_natCast,
        inv_lt_inv₀ (by positivity) (by positivity)] at h
      have hless := two_pow_lt_ten_pow (a := a) (b := b) (by exact_mod_cast h)
      exact .inr ⟨ht, by omega⟩
    · exact .inl ⟨ht, .inl hk⟩
  · have hone : (1 : ℚ) < 2 ^ t := lt_of_le_of_lt (one_le_zpow₀ (by norm_num) hk) h
    have ht : 0 < t := (one_lt_zpow_iff_right₀ (by norm_num)).mp hone
    obtain ⟨a, rfl⟩ := Int.eq_ofNat_of_zero_le hk
    obtain ⟨b, rfl⟩ := Int.eq_ofNat_of_zero_le ht.le
    rw [zpow_natCast, zpow_natCast] at h
    have hless := ten_pow_lt_two_pow (a := a) (b := b) (by exact_mod_cast h)
    exact .inl ⟨by omega, .inr (by omega)⟩

theorem two_zpow_lt_ten_zpow {k t : Int} (h : (2 : ℚ) ^ t < 10 ^ k) :
    t ≤ 0 ∧ (0 < k ∨ 28 * t < 93 * k) ∨ 0 < t ∧ 59 * t < 196 * k := by
  have hinverse : (10 : ℚ) ^ (-k) < 2 ^ (-t) := by
    rw [zpow_neg, zpow_neg, inv_lt_inv₀ (by positivity) (by positivity)]
    exact h
  have hless := ten_zpow_lt_two_zpow hinverse
  omega

def Digits.value (d : Digits) : ℚ :=
  d.digits * 10 ^ d.exponent

namespace Shortest

variable {m : Nat} {e k k' : Int} {D c : Nat}

/-- The step of a decimal grid in quarters of a unit. -/
def step (e k : Int) : ℚ :=
  4 * (10 ^ k / 2 ^ e)

theorem step_pos (e k : Int) : 0 < step e k := by
  rw [step]
  positivity

theorem step_add (e k : Int) (n : Nat) : step e (k + n) = 10 ^ n * step e k := by
  rw [step, step, zpow_add₀ (by norm_num), zpow_natCast]
  ring

theorem digits_mul_step (d : Digits) (e : Int) :
    d.digits * step e d.exponent = 4 * (d.value / 2 ^ e) := by
  rw [step, Digits.value]
  ring

theorem measures_spec (e k : Int) :
    0 < (measures e k).1 ∧ ((measures e k).2 : ℚ) = step e k * (measures e k).1 := by
  have htwo : (2 : ℚ) ^ (max e 0).toNat = 2 ^ e * 2 ^ (max (-e) 0).toNat := by
    rw [← zpow_natCast, ← zpow_natCast, ← zpow_add₀ (by norm_num)]
    congr 1
    omega
  have hten : (10 : ℚ) ^ (max k 0).toNat = 10 ^ k * 10 ^ (max (-k) 0).toNat := by
    rw [← zpow_natCast, ← zpow_natCast, ← zpow_add₀ (by norm_num)]
    congr 1
    omega
  constructor
  · exact Nat.mul_pos (Nat.pow_pos (by decide)) (Nat.pow_pos (by decide))
  · have hpow : (0 : ℚ) < 2 ^ e := by positivity
    simp only [measures, step, Nat.cast_mul, cast_twoTo, cast_tenTo, Nat.cast_ofNat, htwo, hten]
    field_simp

theorem covers_iff (i : Interval) (e k : Int) (c : Nat) :
    covers i e k c = true ↔ i.Has (c * step e k) := by
  obtain ⟨hquarter, hgrid⟩ := measures_spec e k
  obtain ⟨q, hq⟩ : ∃ q, q = (measures e k).1 := ⟨_, rfl⟩
  obtain ⟨g, hg⟩ : ∃ g, g = (measures e k).2 := ⟨_, rfl⟩
  rw [← hq] at hquarter hgrid
  rw [← hg] at hgrid
  have hpos : (0 : ℚ) < q := by exact_mod_cast hquarter
  have hle (a : Nat) : a * q ≤ c * g ↔ (a : ℚ) ≤ c * step e k := by
    rw [← Nat.cast_le (α := ℚ), Nat.cast_mul, Nat.cast_mul, hgrid, ← mul_assoc,
      mul_le_mul_iff_left₀ hpos]
  have hge (a : Nat) : c * g ≤ a * q ↔ c * step e k ≤ (a : ℚ) := by
    rw [← Nat.cast_le (α := ℚ), Nat.cast_mul, Nat.cast_mul, hgrid, ← mul_assoc,
      mul_le_mul_iff_left₀ hpos]
  have hlt (a : Nat) : a * q < c * g ↔ (a : ℚ) < c * step e k := by
    rw [← not_le, hge, not_le]
  have hgt (a : Nat) : c * g < a * q ↔ c * step e k < (a : ℚ) := by
    rw [← not_le, hle, not_le]
  have hmeasures : measures e k = (q, g) := Prod.ext hq.symm hg.symm
  rw [covers, Interval.Has, hmeasures]
  cases hclosed : i.closed with
  | true => simp [hle, hge]
  | false =>
    simp only [hlt, hgt, Bool.false_eq_true, if_false, Bool.and_eq_true, decide_eq_true_eq,
      true_implies]
    constructor
    · intro h
      exact ⟨h.1.le, h.2.le, h⟩
    · exact fun h => h.2.2

/-! ## The search -/

/-- The last number of a grid that is not above the value. -/
def below (i : Interval) (e k : Int) : Nat :=
  i.middle * (measures e k).1 / (measures e k).2

/-- What is found on a grid is covered, and if nothing is found neither neighbour of the value
is. -/
theorem onGrid_spec (i : Interval) (e k : Int) :
    match onGrid i e k with
    | some c => covers i e k c = true
    | none => covers i e k (below i e k) = false ∧ covers i e k (below i e k + 1) = false := by
  obtain ⟨q, hq⟩ : ∃ q, q = (measures e k).1 := ⟨_, rfl⟩
  obtain ⟨g, hg⟩ : ∃ g, g = (measures e k).2 := ⟨_, rfl⟩
  have hmeasures : measures e k = (q, g) := Prod.ext hq.symm hg.symm
  have hbelow : i.middle * q / g = below i e k := by rw [below, hq, hg]
  rw [onGrid, hmeasures]
  simp only [hbelow]
  cases hlow : covers i e k (below i e k) <;> cases hhigh : covers i e k (below i e k + 1)
  · exact ⟨rfl, rfl⟩
  · exact hhigh
  · exact hlow
  · simp only
    split_ifs
    · exact hlow
    · exact hhigh
    · exact hlow
    · exact hhigh

theorem onGrid_eq_some {i : Interval} (hD : covers i e k D = true)
    (hunique : ∀ c, covers i e k c = true → c = D)
    (hnear : D = below i e k ∨ D = below i e k + 1) : onGrid i e k = some D := by
  have hspec := onGrid_spec i e k
  cases hfound : onGrid i e k with
  | none =>
    rw [hfound] at hspec
    rcases hnear with rfl | rfl
    · exact absurd hD (by simp [hspec.1])
    · exact absurd hD (by simp [hspec.2])
  | some c =>
    rw [hfound] at hspec
    rw [hunique c hspec]

theorem onGrid_eq_none {i : Interval} (h : ∀ c, covers i e k c = false) : onGrid i e k = none := by
  have hspec := onGrid_spec i e k
  cases hfound : onGrid i e k with
  | none => rfl
  | some c =>
    rw [hfound] at hspec
    exact absurd hspec (by simp [h c])

/-- The search stops at the first grid on which something is found. -/
theorem search_eq {i : Interval} (hD : D ≠ 0) (hfound : onGrid i e k = some D)
    (hcoarse : ∀ k', k < k' → onGrid i e k' = none) {n : Nat} {start : Int} (hstart : k ≤ start)
    (hn : start < k + n) : search i e n start = ⟨D, k⟩ := by
  induction n generalizing start with
  | zero => omega
  | succ n ih =>
    rw [search]
    rcases hstart.eq_or_lt with rfl | hless
    · rw [hfound]
      exact if_neg hD
    · rw [hcoarse start hless]
      exact ih (by omega) (by omega)

/-- If there is something on a grid that is tried, the search finds a covered number. -/
theorem search_covers {i : Interval} (hzero : ∀ k c, covers i e k c = true → c ≠ 0)
    (hfound : ∃ c, onGrid i e k = some c) {n : Nat} {start : Int} (hstart : k ≤ start)
    (hn : start < k + n) :
    covers i e (search i e n start).exponent (search i e n start).digits = true := by
  induction n generalizing start with
  | zero => omega
  | succ n ih =>
    have hspec := onGrid_spec i e start
    rw [search]
    cases hgrid : onGrid i e start with
    | none =>
      have hne : k ≠ start := by
        rintro rfl
        obtain ⟨c, hc⟩ := hfound
        rw [hc] at hgrid
        cases hgrid
      exact ih (by omega) (by omega)
    | some c =>
      rw [hgrid] at hspec
      simp only [if_neg (hzero start c hspec)]
      exact hspec

theorem below_spec (m : Nat) (e k : Int) :
    below (interval m e) e k * step e k ≤ 4 * m ∧
      (4 * m : ℚ) < (below (interval m e) e k + 1) * step e k := by
  obtain ⟨hquarter, hgrid⟩ := measures_spec e k
  obtain ⟨q, hq⟩ : ∃ q, q = (measures e k).1 := ⟨_, rfl⟩
  obtain ⟨g, hg⟩ : ∃ g, g = (measures e k).2 := ⟨_, rfl⟩
  have hbelow : below (interval m e) e k = 4 * m * q / g := by rw [below, hq, hg, interval]
  rw [← hq] at hquarter hgrid
  rw [← hg] at hgrid
  have hpos : (0 : ℚ) < q := by exact_mod_cast hquarter
  have hgpos : 0 < g := by
    have hproduct := mul_pos (step_pos e k) hpos
    rw [← hgrid] at hproduct
    exact_mod_cast hproduct
  rw [hbelow]
  constructor
  · have hle : ((4 * m * q / g * g : Nat) : ℚ) ≤ (4 * m * q : Nat) := by
      exact_mod_cast Nat.div_mul_le_self (4 * m * q) g
    rw [Nat.cast_mul, hgrid, ← mul_assoc, Nat.cast_mul] at hle
    have hcancel := le_of_mul_le_mul_right hle hpos
    exact_mod_cast hcancel
  · have hlt : ((4 * m * q : Nat) : ℚ) < ((4 * m * q / g + 1) * g : Nat) := by
      exact_mod_cast Nat.lt_mul_of_div_lt (Nat.lt_succ_self _) hgpos
    rw [Nat.cast_mul, Nat.cast_mul _ g, hgrid, ← mul_assoc] at hlt
    have hcancel := lt_of_mul_lt_mul_right hlt hpos.le
    exact_mod_cast hcancel

/-! ## The digits of every double -/

theorem ne_zero_of_covers (hm : 1 ≤ m) (hc : covers (interval m e) e k c = true) : c ≠ 0 := by
  rintro rfl
  have hlow := ((covers_iff _ _ _ _).mp hc).bounds.1.1
  have hm' : (1 : ℚ) ≤ m := by exact_mod_cast hm
  rw [Nat.cast_zero, zero_mul] at hlow
  linarith

theorem low_le (hm : 1 ≤ m) (e : Int) : ((interval m e).low : ℚ) ≤ 4 * m - 1 := by
  have hm' : (1 : ℚ) ≤ m := by exact_mod_cast hm
  by_cases hnarrow : m = twoTo 52 ∧ Double.leastExponent < e
  · rw [cast_low_narrow hnarrow]
  · rw [cast_low hnarrow]
    exact max_le (by linarith) (by linarith)

/-- On a grid with steps of at most a quarter of a unit something is found. -/
theorem onGrid_of_step_le (hm : 1 ≤ m) (hstep : step e k ≤ 1) :
    ∃ c, onGrid (interval m e) e k = some c := by
  obtain ⟨hbelow, habove⟩ := below_spec m e k
  have hlow := low_le hm e
  have hcovers : covers (interval m e) e k (below (interval m e) e k) = true := by
    rw [covers_iff, Interval.Has, cast_high]
    exact ⟨by linarith, by linarith, fun _ => ⟨by linarith, by linarith⟩⟩
  have hspec := onGrid_spec (interval m e) e k
  cases hgrid : onGrid (interval m e) e k with
  | none =>
    rw [hgrid] at hspec
    rw [hspec.1] at hcovers
    cases hcovers
  | some c => exact ⟨c, rfl⟩

/-- The last grid that is tried has steps of at most a quarter of a unit. -/
theorem step_last_le (hm : m < twoTo 53) (he : -1074 ≤ e ∧ e ≤ 971) :
    step e (startExponent m e - 21) ≤ 1 := by
  have hlog : Nat.log2 m ≤ 52 := by
    rcases Nat.eq_zero_or_pos m with rfl | hpos
    · decide
    · exact Nat.lt_succ_iff.mp ((Nat.log2_lt hpos.ne').mpr hm)
  obtain ⟨k, hk⟩ : ∃ k, k = startExponent m e - 21 := ⟨_, rfl⟩
  have hshort : (10 : ℚ) ^ k ≤ 2 ^ (e - 2) := by
    by_contra hlong
    have hexponents := two_zpow_lt_ten_zpow (not_le.mp hlong)
    rw [startExponent] at hk
    omega
  have hpow : (0 : ℚ) < 2 ^ e := by positivity
  have hquarter : (2 : ℚ) ^ (e - 2) = 2 ^ e / 4 := by
    rw [zpow_sub₀ (by norm_num)]
    norm_num
  rw [← hk, step]
  rw [hquarter] at hshort
  have hratio : (10 : ℚ) ^ k / 2 ^ e ≤ 1 / 4 := by
    rw [div_le_iff₀ hpow]
    linarith
  linarith

theorem ofMantissa_has (hm : 1 ≤ m) (hm' : m < twoTo 53) (he : -1074 ≤ e ∧ e ≤ 971) :
    (interval m e).Has ((ofMantissa m e).digits * step e (ofMantissa m e).exponent) := by
  rw [← covers_iff]
  have hfound := onGrid_of_step_le hm (step_last_le hm' he)
  exact search_covers (fun _ _ => ne_zero_of_covers hm) hfound (by omega) (by omega)

theorem value_stripZeros (n : Nat) (d : Digits) : (stripZeros n d).value = d.value := by
  induction n generalizing d with
  | zero => rfl
  | succ n ih =>
    rw [stripZeros]
    split_ifs with hzero
    · rw [ih]
      have hdigits : d.digits = 10 * (d.digits / 10) := by omega
      have hcast : (d.digits : ℚ) = 10 * (d.digits / 10 : Nat) := by exact_mod_cast hdigits
      rw [Digits.value, Digits.value, hcast, zpow_add₀ (by norm_num), zpow_one]
      ring
    · rfl

/-- The shortest digits of a double lie in its interval. -/
theorem shortestDigits_has (hm : 1 ≤ m) (hm' : m < twoTo 53) (he : -1074 ≤ e ∧ e ≤ 971) :
    (interval m e).Has (4 * ((shortestDigits m e).value / 2 ^ e)) := by
  rw [shortestDigits, value_stripZeros, ← digits_mul_step]
  exact ofMantissa_has hm hm' he

/-! ## Numbers with few digits -/

/-- On the grid of a number of at most fifteen digits a step is longer than an interval. -/
theorem four_lt_step (hm : twoTo 52 ≤ m) (hD : D < 10 ^ 15) (h : (interval m e).Has (D * step e k)) :
    4 < step e k := by
  have hm' : ((twoTo 52 : Nat) : ℚ) ≤ m := by exact_mod_cast hm
  rw [cast_twoTo] at hm'
  have hD' : (D : ℚ) < 10 ^ 15 := by exact_mod_cast hD
  have hlow := h.bounds.1.1
  by_contra hshort
  have hproduct : D * step e k ≤ D * 4 :=
    mul_le_mul_of_nonneg_left (not_lt.mp hshort) (Nat.cast_nonneg D)
  linarith

/-- Such a number is the only one in the interval on its grid and on every coarser one. -/
theorem eq_of_covers (hstep : 4 < step e k) (h : (interval m e).Has (D * step e k))
    {n : Nat} (hc : covers (interval m e) e (k + n) c = true) : c * 10 ^ n = D := by
  have hother := (covers_iff (interval m e) e (k + n) c).mp hc
  rw [step_add, ← mul_assoc] at hother
  obtain ⟨hlow, hhigh⟩ := h.bounds.1
  obtain ⟨hlow', hhigh'⟩ := hother.bounds.1
  rcases lt_trichotomy (c * 10 ^ n) D with hless | heq | hmore
  · have hgap : (c * 10 ^ n : ℚ) + 1 ≤ D := by exact_mod_cast hless
    have hproduct : ((c * 10 ^ n : ℚ) + 1) * step e k ≤ D * step e k :=
      mul_le_mul_of_nonneg_right hgap (step_pos e k).le
    linarith
  · exact heq
  · have hgap : (D : ℚ) + 1 ≤ c * 10 ^ n := by exact_mod_cast hmore
    have hproduct : ((D : ℚ) + 1) * step e k ≤ c * 10 ^ n * step e k :=
      mul_le_mul_of_nonneg_right hgap (step_pos e k).le
    linarith

/-- A number of an interval is next to the value on its grid, if a step is longer than the
interval. -/
theorem eq_below_or (hstep : 4 < step e k) (h : (interval m e).Has (D * step e k)) :
    D = below (interval m e) e k ∨ D = below (interval m e) e k + 1 := by
  obtain ⟨hlow, hhigh⟩ := h.bounds.1
  obtain ⟨hbelow, habove⟩ := below_spec m e k
  obtain ⟨b, hb⟩ : ∃ b, b = below (interval m e) e k := ⟨_, rfl⟩
  rw [← hb] at hbelow habove ⊢
  have hleast : b ≤ D := by
    by_contra hless
    have hgap : (D : ℚ) + 1 ≤ b := by exact_mod_cast not_le.mp hless
    have hproduct := mul_le_mul_of_nonneg_right hgap (step_pos e k).le
    linarith
  have hgreatest : D ≤ b + 1 := by
    by_contra hmore
    have hgap : (b : ℚ) + 1 + 1 ≤ D := by exact_mod_cast not_le.mp hmore
    have hproduct := mul_le_mul_of_nonneg_right hgap (step_pos e k).le
    linarith
  omega

/-- The size of a grid on which a number of at most fifteen digits lies in an interval. -/
theorem grid_bounds (hm : twoTo 52 ≤ m ∧ m < twoTo 53) (hD : 0 < D) (hD' : D < 10 ^ 15)
    (h : (interval m e).Has (D * step e k)) :
    (10 : ℚ) ^ k < 2 ^ (53 + e) ∧ (2 : ℚ) ^ (51 + e) < 10 ^ (15 + k) := by
  have hpow : (0 : ℚ) < 2 ^ e := by positivity
  have hlow : ((twoTo 52 : Nat) : ℚ) ≤ m := by exact_mod_cast hm.1
  have hhigh : (m : ℚ) + 1 ≤ (twoTo 53 : Nat) := by exact_mod_cast hm.2
  rw [cast_twoTo] at hlow hhigh
  obtain ⟨hleast, hgreatest⟩ := h.bounds.1
  obtain ⟨r, hr⟩ : ∃ r, r = (10 : ℚ) ^ k / 2 ^ e := ⟨_, rfl⟩
  have hpos : 0 < r := by
    rw [hr]
    positivity
  have hstep : step e k = 4 * r := by rw [step, hr]
  have hsize : (10 : ℚ) ^ k = r * 2 ^ e := by
    rw [hr]
    field_simp
  rw [hstep] at hleast hgreatest
  rw [zpow_add₀ (by norm_num), zpow_add₀ (by norm_num), zpow_add₀ (by norm_num), hsize]
  constructor
  · have hone : (1 : ℚ) ≤ D := by exact_mod_cast hD
    have hproduct : 1 * (4 * r) ≤ D * (4 * r) := mul_le_mul_of_nonneg_right hone (by linarith)
    apply mul_lt_mul_of_pos_right _ hpow
    norm_num
    linarith
  · have hten : (D : ℚ) < 10 ^ 15 := by exact_mod_cast hD'
    have hproduct : D * (4 * r) < 10 ^ 15 * (4 * r) := mul_lt_mul_of_pos_right hten (by linarith)
    rw [← mul_assoc]
    apply mul_lt_mul_of_pos_right _ hpow
    norm_num
    linarith

/-- The search starts above the number, and not far from it. -/
theorem startExponent_spec (hm : twoTo 52 ≤ m ∧ m < twoTo 53) (he : -1074 ≤ e ∧ e ≤ 971)
    (hD : 0 < D) (hD' : D < 10 ^ 15) (h : (interval m e).Has (D * step e k)) :
    k ≤ startExponent m e ∧ startExponent m e < k + 22 := by
  have hpos : 0 < twoTo 52 := by decide
  have hlog : Nat.log2 m = 52 := (Nat.log2_eq_iff (by omega)).mpr hm
  obtain ⟨hten, htwo⟩ := grid_bounds hm hD hD' h
  have habove := ten_zpow_lt_two_zpow hten
  have hbelow := two_zpow_lt_ten_zpow htwo
  rw [startExponent, hlog]
  constructor
  · omega
  · omega

/-- The shortest digits of a double are those of a number of at most fifteen digits in its
interval. -/
theorem shortestDigits_eq (hm : twoTo 52 ≤ m ∧ m < twoTo 53) (he : -1074 ≤ e ∧ e ≤ 971)
    (hD : D % 10 ≠ 0) (hD' : D < 10 ^ 15) (h : (interval m e).Has (D * step e k)) :
    shortestDigits m e = ⟨D, k⟩ := by
  have hstep := four_lt_step hm.1 hD' h
  have hfound : onGrid (interval m e) e k = some D := by
    apply onGrid_eq_some ((covers_iff _ _ _ _).mpr h)
    · intro c hc
      have hsame := eq_of_covers hstep h (n := 0) (by simpa using hc)
      rw [pow_zero, Nat.mul_one] at hsame
      exact hsame
    · exact eq_below_or hstep h
  have hcoarse : ∀ k', k < k' → onGrid (interval m e) e k' = none := by
    intro k' hk'
    obtain ⟨n, hn⟩ := Int.eq_ofNat_of_zero_le (by omega : 0 ≤ k' - k - 1)
    have hk : k' = k + (n + 1 : Nat) := by omega
    rw [hk]
    apply onGrid_eq_none
    intro c
    rw [Bool.eq_false_iff]
    intro hc
    have hsame := eq_of_covers hstep h hc
    rw [pow_succ, ← Nat.mul_assoc] at hsame
    omega
  obtain ⟨hstart, hstart'⟩ := startExponent_spec hm he (by omega) hD' h
  have hsearch : ofMantissa m e = ⟨D, k⟩ := search_eq (by omega) hfound hcoarse hstart hstart'
  rw [shortestDigits, hsearch, stripZeros]
  exact if_neg hD

end Shortest

end PromptRunner.Decimal
